import Orchestrator.Foundation.Json

/-! # What is written is read back

A document whose numbers are natural is read back from its own dump. Within ASCII its texts
must have no lone surrogates: two of them side by side would be read as one character.
-/

namespace Orchestrator.Foundation.Json

open PyText

/-! ## Texts -/

/-- What a character is lexed to, once written. -/
def unitsOf (ascii : Bool) (point : CodePoint) : List (Bool × CodePoint) :=
  match shortEscapes.find? fun escape => escape.1 = point with
  | some _ => [(false, point)]
  | none =>
      if point.val < 0x20 || (ascii && 0x7E < point.val) then
        if point.val < 0x10000 then [(true, point)]
        else ((pointOf (highSurrogate point.val)).toList ++
          (pointOf (lowSurrogate point.val)).toList).map (true, ·)
      else [(false, point)]

/-- The result of a lexer that has read some characters first. -/
def afterUnits (units : List (Bool × CodePoint)) :
    Option (List (Bool × CodePoint) × PyText) → Option (List (Bool × CodePoint) × PyText) :=
  Option.map fun (more, rest) => (units ++ more, rest)

theorem lexText_short {escape : CodePoint × CodePoint} (among : escape ∈ shortEscapes)
    (rest : PyText) :
    lexText (ofChar '\\' :: escape.2 :: rest) = afterUnits [(false, escape.1)] (lexText rest) := by
  have table : (shortEscapes.all fun entry =>
      decide (entry.2 ≠ ofChar 'u' ∧ unescape entry.2 = some entry.1)) = true := by decide
  obtain ⟨notHex, plain⟩ := of_decide_eq_true (List.all_eq_true.mp table escape among)
  have notQuote : ofChar '\\' ≠ ofChar '"' := by decide
  rw [lexText.eq_def]
  simp only [notQuote, notHex, if_false, if_true, plain]
  cases lexText rest <;> rfl

theorem hexValue_hexDigit {digit : Nat} (small : digit < 16) :
    hexValue (hexDigit digit) = some digit := by
  have all : ∀ digit : Fin 16, hexValue (hexDigit digit.val) = some digit.val := by decide
  exact all ⟨digit, small⟩

theorem lexText_unicodeEscape {number : Nat} (basic : number < 0x10000) (rest : PyText) :
    lexText (unicodeEscape number ++ rest) =
      afterUnits ((pointOf number).toList.map (true, ·)) (lexText rest) := by
  have notQuote : ofChar '\\' ≠ ofChar '"' := by decide
  have whole : 4096 * (number / 4096) + 256 * (number / 256 % 16) + 16 * (number / 16 % 16) +
      number % 16 = number := by omega
  have code : hexPoint (hexDigit (number / 4096)) (hexDigit (number / 256 % 16))
      (hexDigit (number / 16 % 16)) (hexDigit (number % 16)) = pointOf number := by
    unfold hexPoint
    rw [hexValue_hexDigit (by omega), hexValue_hexDigit (by omega), hexValue_hexDigit (by omega),
      hexValue_hexDigit (by omega)]
    simp only [Option.bind_eq_bind, Option.bind_some, whole]
  have point : pointOf number = some ⟨number, by omega⟩ := dif_pos _
  simp only [unicodeEscape, List.cons_append, List.nil_append]
  rw [lexText.eq_def]
  simp only [notQuote, if_false, if_true, code, point]
  cases lexText rest <;> rfl

theorem afterUnits_afterUnits (first second : List (Bool × CodePoint))
    (result : Option (List (Bool × CodePoint) × PyText)) :
    afterUnits first (afterUnits second result) = afterUnits (first ++ second) result := by
  cases result with
  | none => rfl
  | some pair =>
      simp only [afterUnits, Option.map_some, List.append_assoc]

/-- A written character is lexed to its units. -/
theorem lexText_escapePoint (ascii : Bool) (point : CodePoint) (rest : PyText) :
    lexText (escapePoint ascii point ++ rest) =
      afterUnits (unitsOf ascii point) (lexText rest) := by
  have bounded := point.isLt
  unfold escapePoint unitsOf
  cases short : shortEscapes.find? fun escape => escape.1 = point with
  | some escape =>
      have among := List.mem_of_find?_eq_some short
      have found := List.find?_some short
      rw [decide_eq_true_eq] at found
      simp only [List.cons_append, List.nil_append]
      rw [lexText_short among, found]
  | none =>
      have other : ∀ escape ∈ shortEscapes, escape.1 ≠ point := fun escape among same =>
        List.find?_eq_none.mp short escape among (decide_eq_true same)
      dsimp only
      by_cases escaped : (point.val < 0x20 || (ascii && 0x7E < point.val)) = true
      · rw [if_pos escaped, if_pos escaped]
        by_cases basic : point.val < 0x10000
        · rw [if_pos basic, if_pos basic, lexText_unicodeEscape basic, pointOf_val]
          rfl
        · have high : highSurrogate point.val < 0x10000 := by
            unfold highSurrogate
            omega
          have low : lowSurrogate point.val < 0x10000 := by
            unfold lowSurrogate
            omega
          rw [if_neg basic, if_neg basic, List.append_assoc, lexText_unicodeEscape high,
            lexText_unicodeEscape low, afterUnits_afterUnits, List.map_append]
      · rw [if_neg escaped, if_neg escaped]
        have notQuote : point ≠ ofChar '"' := (other (ofChar '"', ofChar '"') (by decide)).symm
        have notBackslash : point ≠ ofChar '\\' :=
          (other (ofChar '\\', ofChar '\\') (by decide)).symm
        have printable : ¬ point.val < 0x20 := fun control =>
          escaped (by rw [decide_eq_true control, Bool.true_or])
        rw [List.singleton_append, lexText.eq_def]
        simp only [notQuote, notBackslash, printable, if_false]
        cases lexText rest <;> rfl

/-- A written text is lexed to its units, up to its closing quote. -/
theorem lexText_flatMap (ascii : Bool) (text rest : PyText) :
    lexText (text.flatMap (escapePoint ascii) ++ ofChar '"' :: rest) =
      some (text.flatMap (unitsOf ascii), rest) := by
  induction text with
  | nil =>
      rw [List.flatMap_nil, List.nil_append, lexText.eq_def]
      simp only [if_true, List.flatMap_nil]
  | cons point text ih =>
      rw [List.flatMap_cons, List.append_assoc, lexText_escapePoint, ih]
      rfl

/-- The texts that are read back: any, or within ASCII those without surrogates. -/
def readable (ascii : Bool) (text : PyText) : Bool := !ascii || encodable text

theorem readable_ofString (text : String) : readable true (ofString text) = true := by
  rw [readable, encodable_ofString]
  rfl

theorem joinFrom_unitsOf {ascii : Bool} {point : CodePoint}
    (whole : (!ascii || !isSurrogate point) = true) (units : List (Bool × CodePoint)) :
    joinFrom none (unitsOf ascii point ++ units) = point :: joinFrom none units := by
  have bounded := point.isLt
  unfold unitsOf
  cases shortEscapes.find? fun escape => escape.1 = point with
  | some escape => rfl
  | none =>
      dsimp only
      by_cases escaped : (point.val < 0x20 || (ascii && 0x7E < point.val)) = true
      · rw [if_pos escaped]
        by_cases basic : point.val < 0x10000
        · have notHigh : isHigh point = false := by
            rw [isHigh, Bool.and_eq_false_iff, decide_eq_false_iff_not, decide_eq_false_iff_not]
            simp only [isSurrogate, Bool.or_eq_true, Bool.not_eq_true', Bool.and_eq_false_iff,
              decide_eq_false_iff_not] at whole
            simp only [Bool.or_eq_true, Bool.and_eq_true, decide_eq_true_eq] at escaped
            rcases escaped with control | ⟨within, -⟩
            · omega
            · rcases whole with raw | plain
              · rw [raw] at within
                cases within
              · omega
          rw [if_pos basic, List.singleton_append, joinFrom, notHigh, Bool.and_false,
            if_neg Bool.false_ne_true]
        · have astral : 0x10000 ≤ point.val := Nat.le_of_not_lt basic
          have highBound : highSurrogate point.val < 0x110000 := by
            unfold highSurrogate
            omega
          have lowBound : lowSurrogate point.val < 0x110000 := by
            unfold lowSurrogate
            omega
          have isHighOne : isHigh ⟨highSurrogate point.val, highBound⟩ = true := by
            refine Bool.and_eq_true_iff.mpr ⟨decide_eq_true ?_, decide_eq_true ?_⟩
            · exact Nat.le_add_right _ _
            · dsimp only [highSurrogate]
              omega
          have isLowOne : isLow ⟨lowSurrogate point.val, lowBound⟩ = true := by
            refine Bool.and_eq_true_iff.mpr ⟨decide_eq_true ?_, decide_eq_true ?_⟩
            · exact Nat.le_add_right _ _
            · dsimp only [lowSurrogate]
              omega
          have together : joined ⟨highSurrogate point.val, highBound⟩
              ⟨lowSurrogate point.val, lowBound⟩ = [point] := by
            have back : 0x10000 + (1024 * (highSurrogate point.val - 0xD800) +
                (lowSurrogate point.val - 0xDC00)) = point.val := by
              unfold highSurrogate lowSurrogate
              omega
            rw [joined, back, pointOf_val]
            rfl
          have high : pointOf (highSurrogate point.val) = some ⟨_, highBound⟩ := dif_pos _
          have low : pointOf (lowSurrogate point.val) = some ⟨_, lowBound⟩ := dif_pos _
          rw [if_neg basic, high, low]
          simp only [Option.toList_some, List.cons_append, List.nil_append, List.map_cons,
            List.map_nil, joinFrom, isHighOne, isLowOne, Bool.and_self, if_true, together]
      · rw [if_neg escaped]
        rfl

theorem joinFrom_flatMap {ascii : Bool} {text : PyText} (whole : readable ascii text = true) :
    joinFrom none (text.flatMap (unitsOf ascii)) = text := by
  induction text with
  | nil => rfl
  | cons point text ih =>
      simp only [readable, encodable, List.all_cons, Bool.or_eq_true, Bool.and_eq_true] at whole
      rw [List.flatMap_cons, joinFrom_unitsOf, ih]
      · simp only [readable, encodable, Bool.or_eq_true]
        exact whole.imp_right And.right
      · rw [Bool.or_eq_true]
        exact whole.imp_right And.left

/-- A written text is read back. -/
theorem parseText_dumpText {ascii : Bool} {text : PyText} (whole : readable ascii text = true)
    (rest : PyText) :
    parseText (text.flatMap (escapePoint ascii) ++ ofChar '"' :: rest) = some (text, rest) := by
  rw [parseText, lexText_flatMap, Option.map_some]
  dsimp only
  rw [joinFrom_flatMap whole]

/-! ## Numbers -/

/-- The literals of natural numbers. -/
def isNatural (literal : PyText) : Bool :=
  literal.all isDigit && (literal = [ofChar '0'] || literal.head?.any (· ≠ ofChar '0'))

theorem head_toDigits_ne_zero {number : Nat} (positive : 0 < number) :
    (Nat.toDigits 10 number).head?.any (· ≠ '0') = true := by
  induction number using Nat.strongRecOn with
  | ind number ih =>
      by_cases small : number < 10
      · have all : ∀ digit : Fin 10, 0 < digit.val → Nat.digitChar digit.val ≠ '0' := by decide
        rw [Nat.toDigits_of_lt_base small]
        exact decide_eq_true (all ⟨number, small⟩ positive)
      · rw [Nat.toDigits_of_base_le (by decide) (Nat.le_of_not_lt small)]
        have shorter := ih (number / 10) (by omega) (by omega)
        cases shape : Nat.toDigits 10 (number / 10) with
        | nil => exact absurd shape Nat.toDigits_ne_nil
        | cons first rest =>
            rw [shape] at shorter
            exact shorter

theorem isDigit_ofChar {letter : Char} (digit : letter.isDigit = true) :
    isDigit (ofChar letter) = true := by
  rw [Char.isDigit, Bool.and_eq_true, decide_eq_true_eq, decide_eq_true_eq] at digit
  rw [isDigit, Bool.and_eq_true, decide_eq_true_eq, decide_eq_true_eq]
  exact digit

theorem ofChar_injective : Function.Injective ofChar := by
  intro first second same
  have numbers : first.toNat = second.toNat := by
    simpa only [ofChar, Fin.mk.injEq] using same
  exact Char.ext (UInt32.toNat_inj.mp numbers)

theorem ofString_injective : Function.Injective ofString := fun _ _ same =>
  String.toList_inj.mp (List.map_injective_iff.mpr ofChar_injective same)

/-- The literal of a number is natural. -/
theorem isNatural_naturalLiteral (number : Nat) : isNatural (naturalLiteral number) = true := by
  rw [isNatural, Bool.and_eq_true, Bool.or_eq_true, List.all_eq_true]
  constructor
  · intro point among
    obtain ⟨letter, digit, rfl⟩ := List.mem_map.mp among
    exact isDigit_ofChar (Nat.isDigit_of_mem_toDigits (by decide) (by decide) digit)
  · by_cases zero : number = 0
    · rw [zero]
      exact .inl (by decide)
    · right
      have nonzero := head_toDigits_ne_zero (Nat.pos_of_ne_zero zero)
      rw [naturalLiteral]
      cases shape : Nat.toDigits 10 number with
      | nil => exact absurd shape Nat.toDigits_ne_nil
      | cons first rest =>
          rw [shape] at nonzero
          have other : first ≠ '0' := of_decide_eq_true nonzero
          exact decide_eq_true fun same => other (ofChar_injective same)

/-- What may follow a number: nothing that would continue it. -/
def Delimited (rest : PyText) : Prop :=
  ∀ point ∈ rest.head?, isDigit point = false ∧ point ≠ ofChar '.' ∧ point ≠ ofChar 'e' ∧
    point ≠ ofChar 'E'

theorem delimited_cons {point : CodePoint} {rest : PyText}
    (plain : isDigit point = false ∧ point ≠ ofChar '.' ∧ point ≠ ofChar 'e' ∧
      point ≠ ofChar 'E') : Delimited (point :: rest) := by
  intro first isFirst
  cases isFirst
  exact plain

theorem scanDigits_append {digits rest : PyText} (some : digits ≠ [])
    (all : digits.all isDigit = true) (delimited : Delimited rest) :
    scanDigits (digits ++ rest) = .some (digits, rest) := by
  have stops : rest.takeWhile isDigit = [] ∧ rest.dropWhile isDigit = rest := by
    cases rest with
    | nil => exact ⟨rfl, rfl⟩
    | cons point rest =>
        have stop := (delimited point rfl).1
        rw [List.takeWhile_cons, List.dropWhile_cons, stop]
        exact ⟨rfl, rfl⟩
  rw [List.all_eq_true] at all
  rw [scanDigits, List.takeWhile_append_of_pos all, List.dropWhile_append_of_pos all, stops.1,
    stops.2, List.append_nil, if_neg some]

theorem scanFraction_delimited {rest : PyText} (delimited : Delimited rest) :
    scanOptional scanFraction rest = ([], rest) := by
  cases rest with
  | nil => rfl
  | cons point rest =>
      rw [scanOptional, scanFraction, if_neg (delimited point rfl).2.1]
      rfl

theorem scanExponent_delimited {rest : PyText} (delimited : Delimited rest) :
    scanOptional scanExponent rest = ([], rest) := by
  cases rest with
  | nil => rfl
  | cons point rest =>
      obtain ⟨-, -, lower, upper⟩ := delimited point rfl
      rw [scanOptional, scanExponent.eq_def]
      dsimp only
      rw [if_neg (not_or.mpr ⟨lower, upper⟩)]
      rfl

/-- A natural literal begins with a digit. -/
theorem exists_digit_of_isNatural {literal : PyText} (natural : isNatural literal = true) :
    ∃ point digits, literal = point :: digits ∧ isDigit point = true := by
  cases literal with
  | nil => exact absurd natural (by decide)
  | cons point digits =>
      rw [isNatural, List.all_cons, Bool.and_eq_true, Bool.and_eq_true] at natural
      exact ⟨point, digits, rfl, natural.1.1⟩

theorem scanWhole_natural {literal rest : PyText} (natural : isNatural literal = true)
    (delimited : Delimited rest) : scanWhole (literal ++ rest) = some (literal, rest) := by
  obtain ⟨point, digits, rfl, -⟩ := exists_digit_of_isNatural natural
  rw [isNatural, Bool.and_eq_true, Bool.or_eq_true] at natural
  obtain ⟨all, zero | leading⟩ := natural
  · rw [of_decide_eq_true zero, List.singleton_append, scanWhole, if_pos rfl]
  · have nonzero : point ≠ ofChar '0' := of_decide_eq_true leading
    rw [List.cons_append, scanWhole, if_neg nonzero, ← List.cons_append,
      scanDigits_append (List.cons_ne_nil _ _) all delimited]

theorem scanNumber_natural {literal rest : PyText} (natural : isNatural literal = true)
    (delimited : Delimited rest) : scanNumber (literal ++ rest) = some (literal, rest) := by
  obtain ⟨point, digits, shape, digit⟩ := exists_digit_of_isNatural natural
  have unsigned : point ≠ ofChar '-' := fun same => by
    rw [same] at digit
    exact absurd digit (by decide)
  have whole := scanWhole_natural natural delimited
  rw [shape, List.cons_append] at whole ⊢
  rw [scanNumber, if_neg unsigned, scanUnsigned, whole]
  simp only [Option.bind_eq_bind, Option.bind_some, scanFraction_delimited delimited,
    scanExponent_delimited delimited, List.append_nil]
  rfl

/-- A natural literal is read back. -/
theorem parseAtom_natural {literal rest : PyText} (natural : isNatural literal = true)
    (delimited : Delimited rest) :
    parseAtom (literal ++ rest) = some (.number literal, rest) := by
  have noName : (names.find? fun name => name.1.isPrefixOf (literal ++ rest)) = none := by
    obtain ⟨point, digits, rfl, digit⟩ := exists_digit_of_isNatural natural
    have letters : ∀ name ∈ names.map Prod.fst, ∃ letter tail, name = letter :: tail ∧
        isDigit letter = false := by
      intro name among
      have plain : (names.map Prod.fst).all fun name =>
          name.head?.any fun letter => !isDigit letter := by decide
      have begins := List.all_eq_true.mp plain name among
      cases name with
      | nil => cases begins
      | cons letter tail => exact ⟨letter, tail, rfl, by simpa using begins⟩
    refine List.find?_eq_none.mpr fun name among isStart => ?_
    obtain ⟨letter, tail, shape, plain⟩ := letters name.1 (List.mem_map_of_mem among)
    rw [shape, List.cons_append, List.isPrefixOf_cons_cons, Bool.and_eq_true, beq_iff_eq] at isStart
    rw [isStart.1, digit] at plain
    cases plain
  rw [parseAtom, noName]
  dsimp only
  rw [scanNumber_natural natural delimited]
  rfl

/-! ## Documents -/

mutual

/-- The documents that are read back: natural numbers, and readable texts. -/
def dumpable (ascii : Bool) : Json → Bool
  | null => true
  | bool _ => true
  | number literal => isNatural literal
  | string value => readable ascii value
  | array items => dumpableItems ascii items
  | object members => dumpableMembers ascii members

def dumpableItems (ascii : Bool) : List Json → Bool
  | [] => true
  | item :: items => dumpable ascii item && dumpableItems ascii items

def dumpableMembers (ascii : Bool) : List (PyText × Json) → Bool
  | [] => true
  | (key, value) :: members =>
      readable ascii key && dumpable ascii value && dumpableMembers ascii members

end

theorem dumpableMembers_eq_all (ascii : Bool) (members : List (PyText × Json)) :
    dumpableMembers ascii members =
      members.all fun member => readable ascii member.1 && dumpable ascii member.2 := by
  induction members with
  | nil => rfl
  | cons member members ih => rw [dumpableMembers, ih, List.all_cons]

/-- Members whose keys and values are strings. -/
theorem dumpableMembers_map_ofString (items : List (String × String)) :
    dumpableMembers true (items.map fun item => (ofString item.1, string (ofString item.2))) =
      true := by
  induction items with
  | nil => rfl
  | cons item items ih =>
      rw [List.map_cons, dumpableMembers, dumpable, readable_ofString, readable_ofString, ih]
      rfl

/-- An array of texts. -/
theorem dumpableItems_map_string (ascii : Bool) (texts : List PyText) :
    dumpableItems ascii (texts.map string) = texts.all (readable ascii) := by
  induction texts with
  | nil => rfl
  | cons text texts ih => rw [List.map_cons, dumpableItems, dumpable, ih, List.all_cons]

mutual

/-- The nesting and the items of a document, a bound on what reading it back takes. -/
def size : Json → Nat
  | array (item :: items) => 1 + size item + sizeItems items
  | object ((_, value) :: members) => 1 + size value + sizeMembers members
  | _ => 1

def sizeItems : List Json → Nat
  | [] => 1
  | item :: items => 1 + size item + sizeItems items

def sizeMembers : List (PyText × Json) → Nat
  | [] => 1
  | (_, value) :: members => 1 + size value + sizeMembers members

end

/-- A text of blanks. -/
def Blank (text : PyText) : Prop := ∀ point ∈ text, isWhitespace point = true

theorem blank_newline (level : Nat) : Blank (newline level) := by
  intro point among
  rcases List.mem_cons.mp among with rfl | blank
  · rfl
  · rw [List.eq_of_mem_replicate blank]
    rfl

theorem skipSpace_append {blanks : PyText} (blank : Blank blanks) (text : PyText) :
    skipSpace (blanks ++ text) = skipSpace text :=
  List.dropWhile_append_of_pos blank

theorem skipSpace_cons {point : CodePoint} (plain : isWhitespace point = false) (rest : PyText) :
    skipSpace (point :: rest) = point :: rest := by
  rw [skipSpace, List.dropWhile_cons, plain]
  rfl

/-- A written document begins with a letter that is no blank and closes nothing. -/
theorem exists_head_dump {ascii : Bool} {document : Json}
    (fine : dumpable ascii document = true) (level : Nat) :
    ∃ point rest, dump ascii level document = point :: rest ∧ isWhitespace point = false ∧
      point ≠ ofChar ']' := by
  cases document with
  | null => exact ⟨ofChar 'n', _, rfl, by decide, by decide⟩
  | bool value =>
      cases value with
      | false => exact ⟨ofChar 'f', _, rfl, by decide, by decide⟩
      | true => exact ⟨ofChar 't', _, rfl, by decide, by decide⟩
  | number literal =>
      obtain ⟨point, digits, rfl, digit⟩ := exists_digit_of_isNatural fine
      rw [isDigit, Bool.and_eq_true, decide_eq_true_eq, decide_eq_true_eq] at digit
      refine ⟨point, digits, by rw [dump], ?_, fun same => ?_⟩
      · simp only [isWhitespace, Bool.or_eq_false_iff, decide_eq_false_iff_not]
        omega
      · rw [same] at digit
        exact absurd digit (by decide)
  | string value =>
      exact ⟨ofChar '"', _, by rw [dump, dumpText, List.cons_append], by decide, by decide⟩
  | array items =>
      cases items with
      | nil => exact ⟨ofChar '[', _, by rw [dump], by decide, by decide⟩
      | cons item items => exact ⟨ofChar '[', _, by rw [dump], by decide, by decide⟩
  | object members =>
      cases members with
      | nil => exact ⟨ofChar '\x7b', _, by rw [dump], by decide, by decide⟩
      | cons member members =>
          obtain ⟨key, value⟩ := member
          exact ⟨ofChar '\x7b', _, by rw [dump], by decide, by decide⟩

theorem skipSpace_dump {ascii : Bool} {document : Json} (fine : dumpable ascii document = true)
    (level : Nat) (rest : PyText) :
    skipSpace (dump ascii level document ++ rest) = dump ascii level document ++ rest := by
  obtain ⟨point, tail, shape, plain, -⟩ := exists_head_dump fine level
  rw [shape, List.cons_append, skipSpace_cons plain]

/-- A written key is read back, up to its value. -/
theorem parseKey_dumpText {ascii : Bool} {key value : PyText} (whole : readable ascii key = true)
    (plain : skipSpace value = value) :
    parseKey (dumpText ascii key ++ ofChar ':' :: ofChar ' ' :: value) = some (key, value) := by
  have blank : skipSpace (ofChar ' ' :: value) = value := by
    rw [skipSpace, List.dropWhile_cons, if_pos (by decide)]
    exact plain
  have colon : skipSpace (ofChar ':' :: ofChar ' ' :: value) = ofChar ':' :: ofChar ' ' :: value :=
    skipSpace_cons (by decide) _
  rw [dumpText, List.cons_append, List.cons_append, List.append_assoc, List.singleton_append,
    parseKey.eq_def]
  dsimp only
  rw [if_pos rfl, parseText_dumpText whole]
  simp only [Option.bind_eq_bind, Option.bind_some, colon, if_true, blank]

theorem delimited_dumpItems (ascii : Bool) (level : Nat) (items : List Json) (rest : PyText) :
    Delimited (dumpItems ascii level items ++ rest) := by
  cases items with
  | nil =>
      rw [dumpItems, newline, List.cons_append, List.cons_append]
      exact delimited_cons (by decide)
  | cons item items =>
      rw [dumpItems, List.cons_append]
      exact delimited_cons (by decide)

theorem delimited_dumpMembers (ascii : Bool) (level : Nat) (members : List (PyText × Json))
    (rest : PyText) : Delimited (dumpMembers ascii level members ++ rest) := by
  cases members with
  | nil =>
      rw [dumpMembers, newline, List.cons_append, List.cons_append]
      exact delimited_cons (by decide)
  | cons member members =>
      obtain ⟨key, value⟩ := member
      rw [dumpMembers, List.cons_append]
      exact delimited_cons (by decide)

/-- A first item and the items after it are read back within brackets. -/
theorem parseValue_array {fuel : Nat} {text rest after : PyText} {item : Json} {items : List Json}
    (first : parseValue fuel text = some (item, rest))
    (others : parseItems fuel rest = some (items, after))
    (head : ∃ point tail, skipSpace text = point :: tail ∧ point ≠ ofChar ']')
    (plain : skipSpace text = text) {blanks : PyText} (blank : Blank blanks) :
    parseValue (fuel + 1) (ofChar '[' :: (blanks ++ text)) =
      some (.array (item :: items), after) := by
  obtain ⟨point, tail, shape, opens⟩ := head
  have notQuote : ofChar '[' ≠ ofChar '"' := by decide
  have notBrace : ofChar '[' ≠ ofChar '\x7b' := by decide
  rw [parseValue.eq_def]
  dsimp only
  rw [if_neg notQuote, if_neg notBrace, if_pos rfl, skipSpace_append blank, shape]
  dsimp only
  rw [if_neg opens, ← shape, plain, first]
  simp only [Option.bind_eq_bind, Option.bind_some, others]
  rfl

/-- A first member and the members after it are read back within braces. -/
theorem parseValue_object {ascii : Bool} {fuel : Nat} {text rest after key : PyText} {value : Json}
    {members : List (PyText × Json)} (whole : readable ascii key = true)
    (first : parseValue fuel text = some (value, rest))
    (others : parseMembers fuel rest = some (members, after))
    (plain : skipSpace text = text) {blanks : PyText} (blank : Blank blanks) :
    parseValue (fuel + 1) (ofChar '\x7b' :: (blanks ++
        (dumpText ascii key ++ ofChar ':' :: ofChar ' ' :: text))) =
      some (.object ((key, value) :: members), after) := by
  have notQuote : ofChar '\x7b' ≠ ofChar '"' := by decide
  have opens : ofChar '"' ≠ ofChar '\x7d' := by decide
  have shape : skipSpace (dumpText ascii key ++ ofChar ':' :: ofChar ' ' :: text) =
      dumpText ascii key ++ ofChar ':' :: ofChar ' ' :: text := by
    rw [dumpText, List.cons_append, List.cons_append, skipSpace_cons (by decide)]
  have named := parseKey_dumpText whole plain
  rw [parseValue.eq_def]
  dsimp only
  rw [if_neg notQuote, if_pos rfl, skipSpace_append blank, shape]
  rw [dumpText, List.cons_append, List.cons_append] at named ⊢
  dsimp only
  rw [if_neg opens, named]
  simp only [Option.bind_eq_bind, Option.bind_some, first, others]
  rfl

theorem parseItems_cons {fuel : Nat} {text rest after : PyText} {item : Json} {items : List Json}
    (first : parseValue fuel text = some (item, rest))
    (others : parseItems fuel rest = some (items, after)) (plain : skipSpace text = text)
    {blanks : PyText} (blank : Blank blanks) :
    parseItems (fuel + 1) (ofChar ',' :: (blanks ++ text)) =
      some (item :: items, after) := by
  have closes : ofChar ',' ≠ ofChar ']' := by decide
  rw [parseItems.eq_def]
  dsimp only
  rw [skipSpace_cons (by decide)]
  dsimp only
  rw [if_neg closes, if_pos rfl, skipSpace_append blank, plain, first]
  simp only [Option.bind_eq_bind, Option.bind_some, others]
  rfl

theorem parseMembers_cons {ascii : Bool} {fuel : Nat} {text rest after key : PyText} {value : Json}
    {members : List (PyText × Json)} (whole : readable ascii key = true)
    (first : parseValue fuel text = some (value, rest))
    (others : parseMembers fuel rest = some (members, after)) (plain : skipSpace text = text)
    {blanks : PyText} (blank : Blank blanks) :
    parseMembers (fuel + 1) (ofChar ',' :: (blanks ++
        (dumpText ascii key ++ ofChar ':' :: ofChar ' ' :: text))) =
      some ((key, value) :: members, after) := by
  have closes : ofChar ',' ≠ ofChar '\x7d' := by decide
  have shape : skipSpace (dumpText ascii key ++ ofChar ':' :: ofChar ' ' :: text) =
      dumpText ascii key ++ ofChar ':' :: ofChar ' ' :: text := by
    rw [dumpText, List.cons_append, List.cons_append, skipSpace_cons (by decide)]
  rw [parseMembers.eq_def]
  dsimp only
  rw [skipSpace_cons (by decide)]
  dsimp only
  rw [if_neg closes, if_pos rfl, skipSpace_append blank, shape, parseKey_dumpText whole plain]
  simp only [Option.bind_eq_bind, Option.bind_some, first, others]
  rfl

/-- The end of an array or an object, on its own line. -/
theorem skipSpace_newline_cons {point : CodePoint} (plain : isWhitespace point = false)
    (level : Nat) (rest : PyText) :
    skipSpace (newline level ++ [point] ++ rest) = point :: rest := by
  rw [List.append_assoc, skipSpace_append (blank_newline level), List.singleton_append,
    skipSpace_cons plain]

section Documents

variable (ascii : Bool)

theorem parseValue_string {fuel : Nat} {value : PyText} (whole : readable ascii value = true)
    (rest : PyText) :
    parseValue (fuel + 1) (dumpText ascii value ++ rest) = some (.string value, rest) := by
  rw [dumpText, List.cons_append, List.cons_append, List.append_assoc, List.singleton_append,
    parseValue.eq_def]
  dsimp only
  rw [if_pos rfl, parseText_dumpText whole]
  rfl

theorem parseValue_atom {fuel : Nat} {point : CodePoint} {tail rest : PyText} {value : Json}
    (atom : parseAtom (point :: tail) = some (value, rest))
    (plain : point ≠ ofChar '"' ∧ point ≠ ofChar '\x7b' ∧ point ≠ ofChar '[') :
    parseValue (fuel + 1) (point :: tail) = some (value, rest) := by
  obtain ⟨notQuote, notBrace, notBracket⟩ := plain
  rw [parseValue.eq_def]
  dsimp only
  rw [if_neg notQuote, if_neg notBrace, if_neg notBracket, atom]

mutual

/-- A document is read back from its own dump, whatever follows it. -/
theorem parseValue_dump : ∀ (document : Json) (level fuel : Nat) (rest : PyText),
    dumpable ascii document = true → size document ≤ fuel → Delimited rest →
      parseValue fuel (dump ascii level document ++ rest) = some (document, rest)
  | document, level, 0, rest, _, enough, _ => by
      exfalso
      revert enough
      cases document with
      | array items => cases items <;> simp [size]
      | object members =>
          cases members with
          | nil => simp [size]
          | cons member members =>
              obtain ⟨key, value⟩ := member
              simp [size]
      | _ => simp [size]
  | null, level, fuel + 1, rest, _, _, _ => parseValue_atom rfl (by decide)
  | bool true, level, fuel + 1, rest, _, _, _ => parseValue_atom rfl (by decide)
  | bool false, level, fuel + 1, rest, _, _, _ => parseValue_atom rfl (by decide)
  | number literal, level, fuel + 1, rest, fine, _, delimited => by
      have atom := parseAtom_natural fine delimited
      obtain ⟨point, digits, shape, digit⟩ := exists_digit_of_isNatural fine
      rw [shape, List.cons_append] at atom
      rw [dump, shape, List.cons_append]
      refine parseValue_atom atom ⟨?_, ?_, ?_⟩ <;>
        · intro same
          rw [same] at digit
          exact absurd digit (by decide)
  | string value, level, fuel + 1, rest, fine, _, _ => by
      rw [dump]
      exact parseValue_string ascii fine rest
  | array [], level, fuel + 1, rest, _, _, _ => rfl
  | array (item :: items), level, fuel + 1, rest, fine, enough, _ => by
      rw [dumpable, dumpableItems, Bool.and_eq_true] at fine
      rw [size] at enough
      have first := parseValue_dump item (level + 1) fuel (dumpItems ascii level items ++ rest)
        fine.1 (by omega) (delimited_dumpItems ascii level items rest)
      have others := parseItems_dump items level fuel rest fine.2 (by omega)
      have plain := skipSpace_dump fine.1 (level + 1) (dumpItems ascii level items ++ rest)
      rw [dump, List.cons_append, List.append_assoc, List.append_assoc]
      refine parseValue_array first others ?_ plain (blank_newline _)
      obtain ⟨point, tail, shape, -, opens⟩ := exists_head_dump fine.1 (level + 1)
      exact ⟨point, _, by rw [plain, shape, List.cons_append], opens⟩
  | object [], level, fuel + 1, rest, _, _, _ => rfl
  | object ((key, value) :: members), level, fuel + 1, rest, fine, enough, _ => by
      rw [dumpable, dumpableMembers, Bool.and_eq_true, Bool.and_eq_true] at fine
      rw [size] at enough
      have first := parseValue_dump value (level + 1) fuel (dumpMembers ascii level members ++ rest)
        fine.1.2 (by omega) (delimited_dumpMembers ascii level members rest)
      have others := parseMembers_dump members level fuel rest fine.2 (by omega)
      have plain := skipSpace_dump fine.1.2 (level + 1) (dumpMembers ascii level members ++ rest)
      rw [dump]
      simp only [List.cons_append, List.append_assoc]
      exact parseValue_object fine.1.1 first others plain (blank_newline _)

theorem parseItems_dump : ∀ (items : List Json) (level fuel : Nat) (rest : PyText),
    dumpableItems ascii items = true → sizeItems items ≤ fuel →
      parseItems fuel (dumpItems ascii level items ++ rest) = some (items, rest)
  | items, level, 0, rest, _, enough => by
      cases items <;> simp [sizeItems] at enough
  | [], level, fuel + 1, rest, _, _ => by
      rw [dumpItems, parseItems.eq_def]
      dsimp only
      rw [skipSpace_newline_cons (by decide)]
      dsimp only
      rw [if_pos rfl]
  | item :: items, level, fuel + 1, rest, fine, enough => by
      rw [dumpableItems, Bool.and_eq_true] at fine
      rw [sizeItems] at enough
      have first := parseValue_dump item (level + 1) fuel (dumpItems ascii level items ++ rest)
        fine.1 (by omega) (delimited_dumpItems ascii level items rest)
      have others := parseItems_dump items level fuel rest fine.2 (by omega)
      have plain := skipSpace_dump fine.1 (level + 1) (dumpItems ascii level items ++ rest)
      rw [dumpItems]
      simp only [List.cons_append, List.append_assoc]
      exact parseItems_cons first others plain (blank_newline _)

theorem parseMembers_dump : ∀ (members : List (PyText × Json)) (level fuel : Nat) (rest : PyText),
    dumpableMembers ascii members = true → sizeMembers members ≤ fuel →
      parseMembers fuel (dumpMembers ascii level members ++ rest) = some (members, rest)
  | members, level, 0, rest, _, enough => by
      cases members with
      | nil => simp [sizeMembers] at enough
      | cons member members =>
          obtain ⟨key, value⟩ := member
          simp [sizeMembers] at enough
  | [], level, fuel + 1, rest, _, _ => by
      rw [dumpMembers, parseMembers.eq_def]
      dsimp only
      rw [skipSpace_newline_cons (by decide)]
      dsimp only
      rw [if_pos rfl]
  | (key, value) :: members, level, fuel + 1, rest, fine, enough => by
      rw [dumpableMembers, Bool.and_eq_true, Bool.and_eq_true] at fine
      rw [sizeMembers] at enough
      have first := parseValue_dump value (level + 1) fuel (dumpMembers ascii level members ++ rest)
        fine.1.2 (by omega) (delimited_dumpMembers ascii level members rest)
      have others := parseMembers_dump members level fuel rest fine.2 (by omega)
      have plain := skipSpace_dump fine.1.2 (level + 1) (dumpMembers ascii level members ++ rest)
      rw [dumpMembers]
      simp only [List.cons_append, List.append_assoc]
      exact parseMembers_cons fine.1.1 first others plain (blank_newline _)

end

/-! ## The size of a dump -/

variable {ascii} in
theorem one_le_length_dump {document : Json} (fine : dumpable ascii document = true)
    (level : Nat) : 1 ≤ (dump ascii level document).length := by
  obtain ⟨point, rest, shape, -⟩ := exists_head_dump fine level
  rw [shape, List.length_cons]
  exact Nat.le_add_left _ _

mutual

theorem size_le_length : ∀ (document : Json) (level : Nat), dumpable ascii document = true →
    size document ≤ (dump ascii level document).length
  | null, level, fine => one_le_length_dump fine level
  | bool _, level, fine => one_le_length_dump fine level
  | number _, level, fine => one_le_length_dump fine level
  | string _, level, fine => one_le_length_dump fine level
  | array [], level, fine => one_le_length_dump fine level
  | array (item :: items), level, fine => by
      rw [dumpable, dumpableItems, Bool.and_eq_true] at fine
      have first := size_le_length item (level + 1) fine.1
      have others := sizeItems_le_length items level fine.2
      rw [dump, size, List.length_cons, List.length_append, List.length_append]
      omega
  | object [], level, fine => one_le_length_dump fine level
  | object ((key, value) :: members), level, fine => by
      rw [dumpable, dumpableMembers, Bool.and_eq_true, Bool.and_eq_true] at fine
      have first := size_le_length value (level + 1) fine.1.2
      have others := sizeMembers_le_length members level fine.2
      rw [dump, size]
      simp only [List.length_cons, List.length_append]
      omega

theorem sizeItems_le_length : ∀ (items : List Json) (level : Nat),
    dumpableItems ascii items = true → sizeItems items ≤ (dumpItems ascii level items).length
  | [], level, _ => by
      rw [dumpItems, sizeItems, List.length_append]
      exact Nat.le_add_left _ _
  | item :: items, level, fine => by
      rw [dumpableItems, Bool.and_eq_true] at fine
      have first := size_le_length item (level + 1) fine.1
      have others := sizeItems_le_length items level fine.2
      rw [dumpItems, sizeItems, List.length_cons, List.length_append, List.length_append]
      omega

theorem sizeMembers_le_length : ∀ (members : List (PyText × Json)) (level : Nat),
    dumpableMembers ascii members = true →
      sizeMembers members ≤ (dumpMembers ascii level members).length
  | [], level, _ => by
      rw [dumpMembers, sizeMembers, List.length_append]
      exact Nat.le_add_left _ _
  | (key, value) :: members, level, fine => by
      rw [dumpableMembers, Bool.and_eq_true, Bool.and_eq_true] at fine
      have first := size_le_length value (level + 1) fine.1.2
      have others := sizeMembers_le_length members level fine.2
      rw [dumpMembers, sizeMembers]
      simp only [List.length_cons, List.length_append]
      omega

end

/-- What is written is read back, also with a line feed after it. -/
theorem loads_dumps {document : Json} (fine : dumpable ascii document = true) :
    loads (dumps ascii document ++ [10]) = some document := by
  have bound := size_le_length ascii document 0 fine
  have enough : size document ≤ (dump ascii 0 document ++ [10]).length := by
    rw [List.length_append]
    omega
  have delimited : Delimited [10] := delimited_cons (by decide)
  have closed : skipSpace [10] = [] := by decide
  rw [dumps, loads, skipSpace_dump fine,
    parseValue_dump ascii document 0 _ [10] fine enough delimited]
  simp only [Option.bind_eq_bind, Option.bind_some, closed, if_true]

end Documents

end Orchestrator.Foundation.Json
