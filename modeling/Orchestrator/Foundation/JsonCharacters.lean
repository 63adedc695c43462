import Orchestrator.Foundation.JsonRoundTrip

/-! # The characters of a written document

The layout of a dump is printable ASCII and line feeds; beyond it a dump holds the
characters of the document's texts that are written as they are.
-/

namespace Orchestrator.Foundation.Json

open PyText

mutual

/-- Every text of a document passes a test. -/
def allTexts (test : PyText → Bool) : Json → Bool
  | string value => test value
  | array items => allTextsItems test items
  | object members => allTextsMembers test members
  | _ => true

def allTextsItems (test : PyText → Bool) : List Json → Bool
  | [] => true
  | item :: items => allTexts test item && allTextsItems test items

def allTextsMembers (test : PyText → Bool) : List (PyText × Json) → Bool
  | [] => true
  | (key, value) :: members => test key && (allTexts test value && allTextsMembers test members)

end

/-- The characters that a quoted text holds as they are. -/
def isRaw (ascii : Bool) (point : CodePoint) : Bool :=
  (shortEscapes.find? fun escape => escape.1 = point).isNone &&
    !(point.val < 0x20 || (ascii && 0x7E < point.val))

/-- A line feed, or printable within ASCII. -/
def isLayout (point : CodePoint) : Bool :=
  point.val = 10 || (0x20 ≤ point.val && point.val ≤ 0x7E)

/-- A character of printable ASCII. -/
def isPrintable (point : CodePoint) : Bool := 0x20 ≤ point.val && point.val ≤ 0x7E

/-- A character of printable ASCII that is not blank. -/
def isGraphic (point : CodePoint) : Bool := 0x21 ≤ point.val && point.val ≤ 0x7E

section Graphic

variable {test : CodePoint → Bool}
  (graphic : ∀ point, isGraphic point = true → test point = true)
include graphic

theorem all_unicodeEscape {number : Nat} (basic : number < 0x10000) :
    (unicodeEscape number).all test = true := by
  have digits : ∀ digit : Fin 16, isGraphic (hexDigit digit.val) = true := by decide
  have passes : ∀ digit < 16, test (hexDigit digit) = true := fun digit small =>
    graphic _ (digits ⟨digit, small⟩)
  simp only [unicodeEscape, List.all_cons, List.all_nil, Bool.and_true, Bool.and_eq_true]
  exact ⟨graphic _ (by decide), graphic _ (by decide), passes _ (by omega), passes _ (by omega),
    passes _ (by omega), passes _ (by omega)⟩

theorem all_escapePoint (ascii : Bool) (point : CodePoint) :
    (escapePoint ascii point).all test = (!isRaw ascii point || test point) := by
  have bounded := point.isLt
  unfold escapePoint isRaw
  cases short : shortEscapes.find? fun escape => escape.1 = point with
  | some escape =>
      have letters : (shortEscapes.all fun entry => isGraphic entry.2) = true := by decide
      have letter := graphic _
        (List.all_eq_true.mp letters escape (List.mem_of_find?_eq_some short))
      have slash : test (ofChar '\\') = true := graphic _ (by decide)
      simp only [List.all_cons, List.all_nil, slash, letter]
      rfl
  | none =>
      dsimp only
      by_cases escaped : (point.val < 0x20 || (ascii && 0x7E < point.val)) = true
      · rw [if_pos escaped, escaped]
        by_cases basic : point.val < 0x10000
        · rw [if_pos basic, all_unicodeEscape graphic basic]
          rfl
        · rw [if_neg basic, List.all_append, all_unicodeEscape graphic, all_unicodeEscape graphic]
          · rfl
          · unfold lowSurrogate
            omega
          · unfold highSurrogate
            omega
      · rw [if_neg escaped, (Bool.not_eq_true _).mp escaped, List.all_cons, List.all_nil,
          Bool.and_true]
        rfl

theorem all_dumpText (ascii : Bool) (text : PyText) :
    (dumpText ascii text).all test = text.all fun point => !isRaw ascii point || test point := by
  have quote : test (ofChar '"') = true := graphic _ (by decide)
  simp only [dumpText, List.all_append, List.all_cons, List.all_nil, quote, Bool.true_and,
    Bool.and_true, List.all_flatMap, all_escapePoint graphic]

end Graphic

section Printable

variable {test : CodePoint → Bool}
  (printable : ∀ point, isPrintable point = true → test point = true)
include printable

theorem graphic_of_printable : ∀ point, isGraphic point = true → test point = true := by
  intro point graphic
  rw [isGraphic, Bool.and_eq_true, decide_eq_true_eq, decide_eq_true_eq] at graphic
  refine printable point ?_
  rw [isPrintable, Bool.and_eq_true, decide_eq_true_eq, decide_eq_true_eq]
  omega

/-- What printable characters pass. -/
theorem all_of_isPrintable {text : PyText} (letters : text.all isPrintable = true) :
    text.all test = true :=
  List.all_eq_true.mpr fun point among => printable point (List.all_eq_true.mp letters point among)

end Printable

section Characters

variable {test : CodePoint → Bool} (layout : ∀ point, isLayout point = true → test point = true)
include layout

/-- Printable characters are of the layout. -/
theorem printable_of_layout : ∀ point, isPrintable point = true → test point = true :=
  fun point plain => layout point (by rw [isLayout, ← isPrintable, plain, Bool.or_true])

theorem all_newline (level : Nat) : (newline level).all test = true := by
  rw [newline, List.all_cons, layout 10 (by decide), Bool.true_and, List.all_eq_true]
  intro point among
  rw [List.eq_of_mem_replicate among]
  exact layout _ (by decide)

theorem all_natural {literal : PyText} (natural : isNatural literal = true) :
    literal.all test = true := by
  rw [isNatural, Bool.and_eq_true, List.all_eq_true] at natural
  refine List.all_eq_true.mpr fun point among => layout point ?_
  have digit := natural.1 point among
  simp only [isDigit, Bool.and_eq_true, decide_eq_true_eq] at digit
  simp only [isLayout, Bool.or_eq_true, Bool.and_eq_true, decide_eq_true_eq]
  omega

theorem all_of_isLayout {text : PyText} (letters : text.all isLayout = true) :
    text.all test = true :=
  List.all_eq_true.mpr fun point among => layout point (List.all_eq_true.mp letters point among)

variable (ascii : Bool)

mutual

/-- The characters of a dump pass a test that its layout does exactly when the raw characters of its
texts do. -/
theorem all_dump : ∀ (document : Json) (level : Nat), dumpable ascii document = true →
    (dump ascii level document).all test =
      allTexts (·.all fun point => !isRaw ascii point || test point) document
  | null, level, _ => by
      rw [dump, allTexts.eq_def]
      exact all_of_isLayout layout (by decide)
  | bool true, level, _ => by
      rw [dump, allTexts.eq_def]
      exact all_of_isLayout layout (by decide)
  | bool false, level, _ => by
      rw [dump, allTexts.eq_def]
      exact all_of_isLayout layout (by decide)
  | number literal, level, fine => by
      rw [dump, allTexts.eq_def]
      exact all_natural layout fine
  | string value, level, _ => by
      rw [dump, allTexts]
      exact all_dumpText (graphic_of_printable (printable_of_layout layout)) ascii value
  | array [], level, _ => by
      rw [dump, allTexts, allTextsItems, List.all_cons, List.all_cons, List.all_nil,
        layout (ofChar '[') (by decide), layout (ofChar ']') (by decide)]
      rfl
  | array (item :: items), level, fine => by
      rw [dumpable, dumpableItems, Bool.and_eq_true] at fine
      rw [dump, allTexts, allTextsItems, List.all_cons, List.all_append, List.all_append,
        layout (ofChar '[') (by decide), all_newline layout, all_dump item (level + 1) fine.1,
        all_dumpItems items level fine.2]
      rfl
  | object [], level, _ => by
      rw [dump, allTexts, allTextsMembers, List.all_cons, List.all_cons, List.all_nil,
        layout (ofChar '\x7b') (by decide), layout (ofChar '\x7d') (by decide)]
      rfl
  | object ((key, value) :: members), level, fine => by
      rw [dumpable, dumpableMembers, Bool.and_eq_true, Bool.and_eq_true] at fine
      rw [dump, allTexts, allTextsMembers]
      simp only [List.all_cons, List.all_append, layout (ofChar '\x7b') (by decide),
        layout (ofChar ':') (by decide), layout (ofChar ' ') (by decide), all_newline layout,
        all_dumpText (graphic_of_printable (printable_of_layout layout)),
        all_dump value (level + 1) fine.1.2,
        all_dumpMembers members level fine.2, Bool.true_and]

theorem all_dumpItems : ∀ (items : List Json) (level : Nat), dumpableItems ascii items = true →
    (dumpItems ascii level items).all test =
      allTextsItems (·.all fun point => !isRaw ascii point || test point) items
  | [], level, _ => by
      rw [dumpItems, allTextsItems, List.all_append, all_newline layout, List.all_cons,
        List.all_nil, layout (ofChar ']') (by decide)]
      rfl
  | item :: items, level, fine => by
      rw [dumpableItems, Bool.and_eq_true] at fine
      rw [dumpItems, allTextsItems, List.all_cons, List.all_append, List.all_append,
        layout (ofChar ',') (by decide), all_newline layout, all_dump item (level + 1) fine.1,
        all_dumpItems items level fine.2]
      rfl

theorem all_dumpMembers : ∀ (members : List (PyText × Json)) (level : Nat),
    dumpableMembers ascii members = true →
      (dumpMembers ascii level members).all test =
        allTextsMembers (·.all fun point => !isRaw ascii point || test point) members
  | [], level, _ => by
      rw [dumpMembers, allTextsMembers, List.all_append, all_newline layout, List.all_cons,
        List.all_nil, layout (ofChar '\x7d') (by decide)]
      rfl
  | (key, value) :: members, level, fine => by
      rw [dumpableMembers, Bool.and_eq_true, Bool.and_eq_true] at fine
      rw [dumpMembers, allTextsMembers]
      simp only [List.all_cons, List.all_append, layout (ofChar ',') (by decide),
        layout (ofChar ':') (by decide), layout (ofChar ' ') (by decide), all_newline layout,
        all_dumpText (graphic_of_printable (printable_of_layout layout)),
        all_dump value (level + 1) fine.1.2,
        all_dumpMembers members level fine.2, Bool.true_and]

end

end Characters

theorem allTextsMembers_eq_all {test : PyText → Bool} (members : List (PyText × Json)) :
    allTextsMembers test members =
      members.all fun member => test member.1 && allTexts test member.2 := by
  induction members with
  | nil => rfl
  | cons member members ih => rw [allTextsMembers, ih, List.all_cons, Bool.and_assoc]

/-- An array of texts. -/
theorem allTextsItems_map_string {test : PyText → Bool} (texts : List PyText) :
    allTextsItems test (texts.map string) = texts.all test := by
  induction texts with
  | nil => rfl
  | cons text texts ih => rw [List.map_cons, allTextsItems, allTexts, ih, List.all_cons]

mutual

theorem allTexts_of_forall {test : PyText → Bool} (passes : ∀ text, test text = true) :
    ∀ document : Json, allTexts test document = true
  | null => rfl
  | bool _ => rfl
  | number _ => rfl
  | string value => passes value
  | array items => by
      rw [allTexts]
      exact allTextsItems_of_forall passes items
  | object members => by
      rw [allTexts]
      exact allTextsMembers_of_forall passes members

theorem allTextsItems_of_forall {test : PyText → Bool} (passes : ∀ text, test text = true) :
    ∀ items : List Json, allTextsItems test items = true
  | [] => rfl
  | item :: items => by
      rw [allTextsItems, allTexts_of_forall passes item, allTextsItems_of_forall passes items]
      rfl

theorem allTextsMembers_of_forall {test : PyText → Bool} (passes : ∀ text, test text = true) :
    ∀ members : List (PyText × Json), allTextsMembers test members = true
  | [] => rfl
  | (key, value) :: members => by
      rw [allTextsMembers, passes, allTexts_of_forall passes value,
        allTextsMembers_of_forall passes members]
      rfl

end

/-- The characters beyond ASCII are written as they are. -/
theorem isRaw_of_le {point : CodePoint} (beyond : 0x80 ≤ point.val) : isRaw false point = true := by
  have table : (shortEscapes.all fun entry => decide (entry.1.val < 0x80)) = true := by decide
  have other : (shortEscapes.find? fun escape => escape.1 = point) = none := by
    refine List.find?_eq_none.mpr fun entry among same => ?_
    have small := of_decide_eq_true (List.all_eq_true.mp table entry among)
    rw [of_decide_eq_true same] at small
    omega
  have printable : decide (point.val < 0x20) = false := decide_eq_false (by omega)
  rw [isRaw, other, printable]
  rfl

/-- A surrogate is written as it is. -/
theorem raw_surrogate (point : CodePoint) :
    (!isRaw false point || !isSurrogate point) = !isSurrogate point := by
  cases surrogate : isSurrogate point with
  | false => exact Bool.or_true _
  | true =>
      simp only [isSurrogate, Bool.and_eq_true, decide_eq_true_eq] at surrogate
      rw [isRaw_of_le (by omega)]
      rfl

section Dumps

variable {ascii : Bool} {document : Json}

/-- A dump holds no carriage return. -/
theorem ne_return_of_mem_dumps (fine : dumpable ascii document = true) {point : CodePoint}
    (among : point ∈ dumps ascii document) : point.val ≠ 13 := by
  let test : CodePoint → Bool := fun point => decide (point.val ≠ 13)
  have layout : ∀ point, isLayout point = true → test point = true := by
    intro point plain
    simp only [isLayout, Bool.or_eq_true, Bool.and_eq_true, decide_eq_true_eq] at plain
    exact decide_eq_true (by omega)
  have raw : ∀ text : PyText, (text.all fun point => !isRaw ascii point || test point) = true := by
    refine fun text => List.all_eq_true.mpr fun point _ => ?_
    by_cases isReturn : point.val = 13
    · have same : point = 13 := Fin.ext isReturn
      rw [same]
      rfl
    · rw [show test point = true from decide_eq_true isReturn, Bool.or_true]
  have all := all_dump layout ascii document 0 fine
  rw [allTexts_of_forall raw] at all
  exact of_decide_eq_true (List.all_eq_true.mp all point among)

/-- A document that is written as a file of text is read back from it. -/
theorem loads_universalNewlines (fine : dumpable ascii document = true) :
    loads (universalNewlines (dumps ascii document ++ [10])) = some document := by
  rw [universalNewlines_eq, loads_dumps ascii fine]
  intro point among
  rcases List.mem_append.mp among with inside | last
  · exact ne_return_of_mem_dumps fine inside
  · rw [List.mem_singleton.mp last]
    decide

/-- A dump has an encoding exactly when each text of the document has one. -/
theorem encodable_dumps (fine : dumpable false document = true) :
    encodable (dumps false document) = allTexts encodable document := by
  have layout : ∀ point, isLayout point = true → (!isSurrogate point) = true := by
    intro point plain
    simp only [isLayout, Bool.or_eq_true, Bool.and_eq_true, decide_eq_true_eq] at plain
    rw [Bool.not_eq_true', isSurrogate, Bool.and_eq_false_iff, decide_eq_false_iff_not]
    omega
  have all := all_dump layout false document 0 fine
  simp only [raw_surrogate] at all
  exact all

/-- A dump within ASCII has an encoding. -/
theorem encodable_dumps_ascii (fine : dumpable true document = true) :
    encodable (dumps true document) = true := by
  have layout : ∀ point, isLayout point = true → (!isSurrogate point) = true := by
    intro point plain
    simp only [isLayout, Bool.or_eq_true, Bool.and_eq_true, decide_eq_true_eq] at plain
    rw [Bool.not_eq_true', isSurrogate, Bool.and_eq_false_iff, decide_eq_false_iff_not]
    omega
  have raw : ∀ text : PyText,
      (text.all fun point => !isRaw true point || !isSurrogate point) = true := by
    refine fun text => List.all_eq_true.mpr fun point _ => ?_
    by_cases low : point.val < 0xD800
    · have plain : isSurrogate point = false := by
        rw [isSurrogate, decide_eq_false (Nat.not_le.mpr low), Bool.false_and]
      rw [plain]
      exact Bool.or_true _
    · have beyond : decide (0x7E < point.val) = true := decide_eq_true (by omega)
      rw [isRaw, beyond, Bool.and_true, Bool.or_true, Bool.not_true, Bool.and_false]
      rfl
  have all := all_dump layout true document 0 fine
  rwa [allTexts_of_forall raw] at all

end Dumps

end Orchestrator.Foundation.Json
