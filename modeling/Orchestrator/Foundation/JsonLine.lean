import Orchestrator.Foundation.JsonCharacters
import Orchestrator.Foundation.JsonNumbers

/-! # JSON documents on one line

Writing a document without an indent, its texts as they are, as `json.dumps` does when it is
asked for no more. What is written is read back as the same document, and beyond the layout it
holds the characters of the document's texts.
-/

namespace Orchestrator.Foundation.Json

open PyText

mutual

/-- `json.dumps(document, ensure_ascii=False)`. -/
def line : Json → PyText
  | null => ofString "null"
  | bool true => ofString "true"
  | bool false => ofString "false"
  | number literal => literal
  | string value => dumpText false value
  | array [] => [ofChar '[', ofChar ']']
  | array (item :: items) => ofChar '[' :: (line item ++ lineItems items)
  | object [] => [ofChar '\x7b', ofChar '\x7d']
  | object ((key, value) :: members) =>
      ofChar '\x7b' :: (dumpText false key ++ (ofChar ':' :: ofChar ' ' ::
        (line value ++ lineMembers members)))

/-- The items after the first, and the end of the array. -/
def lineItems : List Json → PyText
  | [] => [ofChar ']']
  | item :: items => ofChar ',' :: ofChar ' ' :: (line item ++ lineItems items)

/-- The members after the first, and the end of the object. -/
def lineMembers : List (PyText × Json) → PyText
  | [] => [ofChar '\x7d']
  | (key, value) :: members =>
      ofChar ',' :: ofChar ' ' :: (dumpText false key ++ (ofChar ':' :: ofChar ' ' ::
        (line value ++ lineMembers members)))

end

mutual

/-- A document whose numbers are numbers. -/
def numeric : Json → Bool
  | number literal => isNumber literal
  | array items => numericItems items
  | object members => numericMembers members
  | _ => true

def numericItems : List Json → Bool
  | [] => true
  | item :: items => numeric item && numericItems items

def numericMembers : List (PyText × Json) → Bool
  | [] => true
  | (_, value) :: members => numeric value && numericMembers members

end

theorem numericItems_eq_all (items : List Json) : numericItems items = items.all numeric := by
  induction items with
  | nil => rfl
  | cons item items ih => rw [numericItems, ih, List.all_cons]

theorem numericMembers_eq_all (members : List (PyText × Json)) :
    numericMembers members = members.all fun member => numeric member.2 := by
  induction members with
  | nil => rfl
  | cons member members ih => rw [numericMembers, ih, List.all_cons]

/-! ## Reading a line -/

/-- What a written document begins with. -/
theorem exists_head_line {document : Json} (fine : numeric document = true) :
    ∃ point rest, line document = point :: rest ∧ isSpace point = false ∧
      isWhitespace point = false ∧ point ≠ ofChar ']' := by
  cases document with
  | null => exact ⟨ofChar 'n', _, rfl, by decide⟩
  | bool value =>
      cases value with
      | false => exact ⟨ofChar 'f', _, rfl, by decide⟩
      | true => exact ⟨ofChar 't', _, rfl, by decide⟩
  | number literal =>
      obtain ⟨point, rest, rfl, starts⟩ := exists_head_of_isNumber fine
      refine ⟨point, rest, by rw [line], ?_⟩
      rcases starts with numeral | rfl | rfl
      · simp only [isNumeral, isDigit, Bool.or_eq_true, Bool.and_eq_true, decide_eq_true_eq,
          List.mem_cons, List.not_mem_nil, or_false] at numeral
        rcases numeral with digit | rfl | rfl | rfl | rfl | rfl
        · refine ⟨?_, ?_, fun same => ?_⟩
          · simp only [isSpace, Bool.or_eq_false_iff, Bool.and_eq_false_iff,
              decide_eq_false_iff_not]
            omega
          · simp only [isWhitespace, Bool.or_eq_false_iff, decide_eq_false_iff_not]
            omega
          · rw [same] at digit
            exact absurd digit (by decide)
        all_goals decide
      · decide
      · decide
  | string value =>
      exact ⟨ofChar '"', _, by rw [line, dumpText, List.cons_append], by decide⟩
  | array items =>
      cases items with
      | nil => exact ⟨ofChar '[', _, by rw [line], by decide⟩
      | cons item items => exact ⟨ofChar '[', _, by rw [line], by decide⟩
  | object members =>
      cases members with
      | nil => exact ⟨ofChar '\x7b', _, by rw [line], by decide⟩
      | cons member members => exact ⟨ofChar '\x7b', _, by rw [line], by decide⟩

theorem skipSpace_line {document : Json} (fine : numeric document = true) (rest : PyText) :
    skipSpace (line document ++ rest) = line document ++ rest := by
  obtain ⟨point, tail, shape, -, plain, -⟩ := exists_head_line fine
  rw [shape, List.cons_append, skipSpace_cons plain]

theorem delimited_lineItems (items : List Json) (rest : PyText) :
    Delimited (lineItems items ++ rest) := by
  cases items with
  | nil =>
      rw [lineItems, List.cons_append]
      exact delimited_cons (by decide)
  | cons item items =>
      rw [lineItems, List.cons_append]
      exact delimited_cons (by decide)

theorem delimited_lineMembers (members : List (PyText × Json)) (rest : PyText) :
    Delimited (lineMembers members ++ rest) := by
  cases members with
  | nil =>
      rw [lineMembers, List.cons_append]
      exact delimited_cons (by decide)
  | cons member members =>
      rw [lineMembers, List.cons_append]
      exact delimited_cons (by decide)

theorem blank_space : Blank [ofChar ' '] := by
  intro point among
  rw [List.mem_singleton.mp among]
  decide

theorem blank_nil : Blank [] := List.forall_mem_nil _

mutual

/-- A document is read back from its own line, whatever follows it. -/
theorem parseValue_line : ∀ (document : Json) (fuel : Nat) (rest : PyText),
    numeric document = true → size document ≤ fuel → Delimited rest →
      parseValue fuel (line document ++ rest) = some (document, rest)
  | document, 0, rest, _, enough, _ => by
      exfalso
      revert enough
      cases document with
      | array items => cases items <;> simp [size]
      | object members =>
          cases members with
          | nil => simp [size]
          | cons member members =>
              obtain ⟨key, value⟩ := member
              simp [size]
      | _ => simp [size]
  | null, fuel + 1, rest, _, _, _ => parseValue_atom rfl (by decide)
  | bool true, fuel + 1, rest, _, _, _ => parseValue_atom rfl (by decide)
  | bool false, fuel + 1, rest, _, _, _ => parseValue_atom rfl (by decide)
  | number literal, fuel + 1, rest, fine, _, delimited => by
      have atom := parseAtom_number fine delimited
      obtain ⟨point, digits, shape, starts⟩ := exists_head_of_isNumber fine
      rw [shape, List.cons_append] at atom
      rw [line, shape, List.cons_append]
      refine parseValue_atom atom ⟨?_, ?_, ?_⟩ <;>
        · rintro rfl
          exact absurd starts (by decide)
  | string value, fuel + 1, rest, _, _, _ => by
      rw [line]
      exact parseValue_string false rfl rest
  | array [], fuel + 1, rest, _, _, _ => rfl
  | array (item :: items), fuel + 1, rest, fine, enough, _ => by
      rw [numeric, numericItems, Bool.and_eq_true] at fine
      rw [size] at enough
      have first := parseValue_line item fuel (lineItems items ++ rest) fine.1 (by omega)
        (delimited_lineItems items rest)
      have others := parseItems_line items fuel rest fine.2 (by omega)
      have plain := skipSpace_line fine.1 (lineItems items ++ rest)
      rw [line, List.cons_append, List.append_assoc]
      refine parseValue_array first others ?_ plain blank_nil
      obtain ⟨point, tail, shape, -, -, opens⟩ := exists_head_line fine.1
      exact ⟨point, _, by rw [plain, shape, List.cons_append], opens⟩
  | object [], fuel + 1, rest, _, _, _ => rfl
  | object ((key, value) :: members), fuel + 1, rest, fine, enough, _ => by
      rw [numeric, numericMembers, Bool.and_eq_true] at fine
      rw [size] at enough
      have first := parseValue_line value fuel (lineMembers members ++ rest) fine.1 (by omega)
        (delimited_lineMembers members rest)
      have others := parseMembers_line members fuel rest fine.2 (by omega)
      have plain := skipSpace_line fine.1 (lineMembers members ++ rest)
      have whole : readable false key = true := rfl
      rw [line]
      simp only [List.cons_append, List.append_assoc]
      exact parseValue_object whole first others plain blank_nil

theorem parseItems_line : ∀ (items : List Json) (fuel : Nat) (rest : PyText),
    numericItems items = true → sizeItems items ≤ fuel →
      parseItems fuel (lineItems items ++ rest) = some (items, rest)
  | items, 0, rest, _, enough => by
      cases items <;> simp [sizeItems] at enough
  | [], fuel + 1, rest, _, _ => rfl
  | item :: items, fuel + 1, rest, fine, enough => by
      rw [numericItems, Bool.and_eq_true] at fine
      rw [sizeItems] at enough
      have first := parseValue_line item fuel (lineItems items ++ rest) fine.1 (by omega)
        (delimited_lineItems items rest)
      have others := parseItems_line items fuel rest fine.2 (by omega)
      have plain := skipSpace_line fine.1 (lineItems items ++ rest)
      rw [lineItems]
      simp only [List.cons_append, List.append_assoc]
      exact parseItems_cons first others plain blank_space

theorem parseMembers_line : ∀ (members : List (PyText × Json)) (fuel : Nat) (rest : PyText),
    numericMembers members = true → sizeMembers members ≤ fuel →
      parseMembers fuel (lineMembers members ++ rest) = some (members, rest)
  | members, 0, rest, _, enough => by
      cases members with
      | nil => simp [sizeMembers] at enough
      | cons member members =>
          obtain ⟨key, value⟩ := member
          simp [sizeMembers] at enough
  | [], fuel + 1, rest, _, _ => rfl
  | (key, value) :: members, fuel + 1, rest, fine, enough => by
      rw [numericMembers, Bool.and_eq_true] at fine
      rw [sizeMembers] at enough
      have first := parseValue_line value fuel (lineMembers members ++ rest) fine.1 (by omega)
        (delimited_lineMembers members rest)
      have others := parseMembers_line members fuel rest fine.2 (by omega)
      have plain := skipSpace_line fine.1 (lineMembers members ++ rest)
      have whole : readable false key = true := rfl
      rw [lineMembers]
      simp only [List.cons_append, List.append_assoc]
      exact parseMembers_cons whole first others plain blank_space

end

theorem one_le_length_line {document : Json} (fine : numeric document = true) :
    1 ≤ (line document).length := by
  obtain ⟨point, rest, shape, -⟩ := exists_head_line fine
  rw [shape, List.length_cons]
  exact Nat.le_add_left _ _

mutual

theorem size_le_length_line : ∀ document : Json, numeric document = true →
    size document ≤ (line document).length
  | null, fine => one_le_length_line fine
  | bool _, fine => one_le_length_line fine
  | number _, fine => one_le_length_line fine
  | string _, fine => one_le_length_line fine
  | array [], fine => one_le_length_line fine
  | array (item :: items), fine => by
      rw [numeric, numericItems, Bool.and_eq_true] at fine
      have first := size_le_length_line item fine.1
      have others := sizeItems_le_length_line items fine.2
      rw [line, size, List.length_cons, List.length_append]
      omega
  | object [], fine => one_le_length_line fine
  | object ((key, value) :: members), fine => by
      rw [numeric, numericMembers, Bool.and_eq_true] at fine
      have first := size_le_length_line value fine.1
      have others := sizeMembers_le_length_line members fine.2
      rw [line, size]
      simp only [List.length_cons, List.length_append]
      omega

theorem sizeItems_le_length_line : ∀ items : List Json, numericItems items = true →
    sizeItems items ≤ (lineItems items).length
  | [], _ => Nat.le_refl _
  | item :: items, fine => by
      rw [numericItems, Bool.and_eq_true] at fine
      have first := size_le_length_line item fine.1
      have others := sizeItems_le_length_line items fine.2
      rw [lineItems, sizeItems, List.length_cons, List.length_cons, List.length_append]
      omega

theorem sizeMembers_le_length_line : ∀ members : List (PyText × Json),
    numericMembers members = true → sizeMembers members ≤ (lineMembers members).length
  | [], _ => Nat.le_refl _
  | (key, value) :: members, fine => by
      rw [numericMembers, Bool.and_eq_true] at fine
      have first := size_le_length_line value fine.1
      have others := sizeMembers_le_length_line members fine.2
      rw [lineMembers, sizeMembers]
      simp only [List.length_cons, List.length_append]
      omega

end

/-- What is written on a line is read back. -/
theorem loads_line {document : Json} (fine : numeric document = true) :
    loads (line document) = some document := by
  have enough := size_le_length_line document fine
  have delimited : Delimited [] := fun _ none => nomatch none
  have plain := skipSpace_line fine []
  have parsed := parseValue_line document (line document).length [] fine enough delimited
  have closed : skipSpace [] = [] := rfl
  rw [List.append_nil] at plain parsed
  rw [loads, plain, parsed]
  simp only [Option.bind_eq_bind, Option.bind_some, closed, if_true]

/-- Two documents that are written alike are the same. -/
theorem line_injective {first second : Json} (firstFine : numeric first = true)
    (secondFine : numeric second = true) (same : line first = line second) : first = second := by
  have read := loads_line firstFine
  rw [same, loads_line secondFine] at read
  exact (Option.some.inj read).symm

/-! ## The characters of a line -/

section Characters

variable {test : CodePoint → Bool}
  (printable : ∀ point, isPrintable point = true → test point = true)
include printable

mutual

/-- The characters of a line pass a test that its layout does exactly when the raw characters of
its texts do. -/
theorem all_line : ∀ document : Json, numeric document = true →
    (line document).all test =
      allTexts (·.all fun point => !isRaw false point || test point) document
  | null, _ => by
      rw [line, allTexts.eq_def]
      exact all_of_isPrintable printable (by decide)
  | bool true, _ => by
      rw [line, allTexts.eq_def]
      exact all_of_isPrintable printable (by decide)
  | bool false, _ => by
      rw [line, allTexts.eq_def]
      exact all_of_isPrintable printable (by decide)
  | number literal, fine => by
      rw [line, allTexts.eq_def]
      exact all_of_isPrintable printable (all_isNumber fine)
  | string value, _ => by
      rw [line, allTexts]
      exact all_dumpText (graphic_of_printable printable) false value
  | array [], _ => by
      rw [line, allTexts, allTextsItems]
      exact all_of_isPrintable printable (by decide)
  | array (item :: items), fine => by
      rw [numeric, numericItems, Bool.and_eq_true] at fine
      rw [line, allTexts, allTextsItems, List.all_cons, List.all_append,
        printable (ofChar '[') (by decide), all_line item fine.1, all_lineItems items fine.2]
      rfl
  | object [], _ => by
      rw [line, allTexts, allTextsMembers]
      exact all_of_isPrintable printable (by decide)
  | object ((key, value) :: members), fine => by
      rw [numeric, numericMembers, Bool.and_eq_true] at fine
      rw [line, allTexts, allTextsMembers]
      simp only [List.all_cons, List.all_append, printable (ofChar '\x7b') (by decide),
        printable (ofChar ':') (by decide), printable (ofChar ' ') (by decide),
        all_dumpText (graphic_of_printable printable), all_line value fine.1,
        all_lineMembers members fine.2,
        Bool.true_and]

theorem all_lineItems : ∀ items : List Json, numericItems items = true →
    (lineItems items).all test =
      allTextsItems (·.all fun point => !isRaw false point || test point) items
  | [], _ => by
      rw [lineItems, allTextsItems]
      exact all_of_isPrintable printable (by decide)
  | item :: items, fine => by
      rw [numericItems, Bool.and_eq_true] at fine
      rw [lineItems, allTextsItems]
      simp only [List.all_cons, List.all_append, printable (ofChar ',') (by decide),
        printable (ofChar ' ') (by decide), all_line item fine.1, all_lineItems items fine.2,
        Bool.true_and]

theorem all_lineMembers : ∀ members : List (PyText × Json), numericMembers members = true →
    (lineMembers members).all test =
      allTextsMembers (·.all fun point => !isRaw false point || test point) members
  | [], _ => by
      rw [lineMembers, allTextsMembers]
      exact all_of_isPrintable printable (by decide)
  | (key, value) :: members, fine => by
      rw [numericMembers, Bool.and_eq_true] at fine
      rw [lineMembers, allTextsMembers]
      simp only [List.all_cons, List.all_append, printable (ofChar ',') (by decide),
        printable (ofChar ':') (by decide), printable (ofChar ' ') (by decide),
        all_dumpText (graphic_of_printable printable), all_line value fine.1,
        all_lineMembers members fine.2,
        Bool.true_and]

end

end Characters

/-- A line has an encoding exactly when each text of the document has one. -/
theorem encodable_line {document : Json} (fine : numeric document = true) :
    encodable (line document) = allTexts encodable document := by
  have printable : ∀ point, isPrintable point = true → (!isSurrogate point) = true := by
    intro point plain
    rw [isPrintable, Bool.and_eq_true, decide_eq_true_eq, decide_eq_true_eq] at plain
    rw [Bool.not_eq_true', isSurrogate, Bool.and_eq_false_iff, decide_eq_false_iff_not]
    omega
  have all := all_line printable document fine
  simp only [raw_surrogate] at all
  exact all

/-- The ends of lines that a text is not escaped for. -/
def isSeparator (point : CodePoint) : Bool :=
  point.val = 0x85 || point.val = 0x2028 || point.val = 0x2029

/-- A text that stays on its line. -/
def onOneLine (text : PyText) : Bool := text.all fun point => !isSeparator point

/-- What is written as it is ends a line when it is a separator. -/
theorem raw_lineEnd (point : CodePoint) :
    (!isRaw false point || !isLineEnd point) = !isSeparator point := by
  by_cases low : point.val < 0x20
  · have raw : isRaw false point = false := by
      rw [isRaw, decide_eq_true low, Bool.true_or, Bool.not_true, Bool.and_false]
    have plain : isSeparator point = false := by
      simp only [isSeparator, Bool.or_eq_false_iff, decide_eq_false_iff_not]
      omega
    rw [raw, plain]
    rfl
  · have same : isLineEnd point = isSeparator point := by
      rw [Bool.eq_iff_iff]
      simp only [isLineEnd, isSeparator, Bool.or_eq_true, Bool.and_eq_true, decide_eq_true_eq]
      omega
    rw [same]
    cases separates : isSeparator point with
    | false => exact Bool.or_true _
    | true =>
        have beyond : 0x80 ≤ point.val := by
          simp only [isSeparator, Bool.or_eq_true, decide_eq_true_eq] at separates
          omega
        rw [isRaw_of_le beyond]
        rfl

theorem not_isLineEnd_of_isPrintable {point : CodePoint} (plain : isPrintable point = true) :
    (!isLineEnd point) = true := by
  rw [isPrintable, Bool.and_eq_true, decide_eq_true_eq, decide_eq_true_eq] at plain
  simp only [Bool.not_eq_true', isLineEnd, Bool.or_eq_false_iff, Bool.and_eq_false_iff,
    decide_eq_false_iff_not]
  omega

/-- A line is one line exactly when each text of the document is. -/
theorem noEnd_line {document : Json} (fine : numeric document = true) :
    ((line document).all fun point => !isLineEnd point) = allTexts onOneLine document := by
  have all := all_line (fun _ => not_isLineEnd_of_isPrintable) document fine
  simp only [raw_lineEnd] at all
  exact all

/-- A line holds no control character. -/
theorem le_of_mem_line {document : Json} (fine : numeric document = true) {point : CodePoint}
    (among : point ∈ line document) : 0x20 ≤ point.val := by
  have printable : ∀ point, isPrintable point = true → decide (0x20 ≤ point.val) = true :=
    fun _ plain => (Bool.and_eq_true_iff.mp plain).1
  have raw : ∀ text : PyText,
      (text.all fun point => !isRaw false point || decide (0x20 ≤ point.val)) = true := by
    refine fun text => List.all_eq_true.mpr fun point _ => ?_
    by_cases low : point.val < 0x20
    · rw [isRaw, decide_eq_true low, Bool.true_or, Bool.not_true, Bool.and_false]
      rfl
    · rw [decide_eq_true (Nat.le_of_not_lt low), Bool.or_true]
  have all := all_line printable document fine
  rw [allTexts_of_forall raw] at all
  exact of_decide_eq_true (List.all_eq_true.mp all point among)

end Orchestrator.Foundation.Json
