import Orchestrator.Foundation.JsonRoundTrip

/-! # The numbers of a document

A number as it is written: a sign, a whole part, a fraction and an exponent, or the name of a
number that has no digits. It is read back whatever may follow a number.
-/

namespace Orchestrator.Foundation.Json

open PyText

/-- The names of the numbers without digits. -/
def numberNames : List PyText := [ofString "NaN", ofString "Infinity", ofString "-Infinity"]

/-- A literal that is one number. -/
def isNumber (literal : PyText) : Bool :=
  literal ∈ numberNames || scanNumber literal = some (literal, [])

/-- A natural literal is a number. -/
theorem isNumber_of_isNatural {literal : PyText} (natural : isNatural literal = true) :
    isNumber literal = true := by
  have delimited : Delimited [] := fun _ none => nomatch none
  have scanned := scanNumber_natural natural delimited
  rw [List.append_nil] at scanned
  rw [isNumber, decide_eq_true scanned, Bool.or_true]

/-! ## What follows a number -/

section Scans

/-- A scan with more text behind what it leaves. -/
def leaving (more : PyText) (scanned : PyText × PyText) : PyText × PyText :=
  (scanned.1, scanned.2 ++ more)

variable {more : PyText} (delimited : Delimited more)
include delimited

/-- No digit follows a number. -/
theorem takeWhile_delimited :
    more.takeWhile isDigit = [] ∧ more.dropWhile isDigit = more := by
  cases more with
  | nil => exact ⟨rfl, rfl⟩
  | cons point rest =>
      have stop := (delimited point rfl).1
      rw [List.takeWhile_cons, List.dropWhile_cons, stop]
      exact ⟨rfl, rfl⟩

theorem takeWhile_leaving (text : PyText) :
    (text ++ more).takeWhile isDigit = text.takeWhile isDigit ∧
      (text ++ more).dropWhile isDigit = text.dropWhile isDigit ++ more := by
  induction text with
  | nil => exact takeWhile_delimited delimited
  | cons point rest ih =>
      rw [List.cons_append, List.takeWhile_cons, List.takeWhile_cons, List.dropWhile_cons,
        List.dropWhile_cons, ih.1, ih.2]
      cases isDigit point with
      | true => exact ⟨rfl, rfl⟩
      | false => exact ⟨rfl, rfl⟩

theorem scanDigits_leaving (text : PyText) :
    scanDigits (text ++ more) = (scanDigits text).map (leaving more) := by
  obtain ⟨taken, dropped⟩ := takeWhile_leaving delimited text
  rw [scanDigits, scanDigits, taken, dropped]
  split <;> rfl

theorem scanWhole_leaving (text : PyText) :
    scanWhole (text ++ more) = (scanWhole text).map (leaving more) := by
  cases text with
  | nil =>
      have none : scanDigits more = Option.none := by
        rw [scanDigits, if_pos (takeWhile_delimited delimited).1]
      rw [List.nil_append]
      cases more with
      | nil => rfl
      | cons point rest =>
          have plain : point ≠ ofChar '0' := fun same => by
            have stop := (delimited point rfl).1
            rw [same] at stop
            exact absurd stop (by decide)
          have skipped : scanWhole (point :: rest) = scanDigits (point :: rest) := if_neg plain
          rw [skipped, none]
          rfl
  | cons point rest =>
      rw [List.cons_append, scanWhole, scanWhole]
      split
      · rfl
      · rw [← List.cons_append, scanDigits_leaving delimited]

theorem scanFraction_leaving (text : PyText) :
    scanFraction (text ++ more) = (scanFraction text).map (leaving more) := by
  cases text with
  | nil =>
      rw [List.nil_append]
      cases more with
      | nil => rfl
      | cons point rest =>
          exact if_neg (delimited point rfl).2.1
  | cons point rest =>
      rw [List.cons_append, scanFraction, scanFraction, scanDigits_leaving delimited,
        Option.map_map]
      split
      · rw [Option.map_map]
        rfl
      · rfl

theorem scanOptional_fraction_leaving (text : PyText) :
    scanOptional scanFraction (text ++ more) = leaving more (scanOptional scanFraction text) := by
  rw [scanOptional, scanOptional, scanFraction_leaving delimited]
  cases scanFraction text with
  | none => rfl
  | some scanned => rfl

/-- An exponent that nothing follows is read back. -/
theorem scanExponent_leaving {text : PyText} (whole : (scanOptional scanExponent text).2 = []) :
    scanOptional scanExponent (text ++ more) = leaving more (scanOptional scanExponent text) := by
  rw [scanOptional] at whole
  cases text with
  | nil => exact scanExponent_delimited delimited
  | cons point rest =>
      have scanned : (scanExponent (point :: rest)).isSome = true := by
        cases found : scanExponent (point :: rest) with
        | some scanned => rfl
        | none =>
            rw [found] at whole
            cases whole
      have again : scanExponent (point :: rest ++ more) =
          (scanExponent (point :: rest)).map (leaving more) := by
        rw [scanExponent.eq_def] at scanned
        dsimp only at scanned
        split at scanned
        · rename_i letter
          cases rest with
          | nil => cases scanned
          | cons sign after =>
              rw [List.cons_append, List.cons_append, scanExponent.eq_def,
                scanExponent.eq_def (point :: sign :: after)]
              dsimp only
              rw [if_pos letter, if_pos letter, ← List.cons_append, scanDigits_leaving delimited,
                scanDigits_leaving delimited]
              split <;> rw [Option.map_map, Option.map_map] <;> rfl
        · cases scanned
      rw [scanOptional, scanOptional, again]
      cases found : scanExponent (point :: rest) with
      | some scanned => rfl
      | none =>
          rw [found] at scanned
          cases scanned

theorem scanUnsigned_leaving {text literal : PyText}
    (scanned : scanUnsigned text = some (literal, [])) :
    scanUnsigned (text ++ more) = some (literal, more) := by
  unfold scanUnsigned at scanned ⊢
  rw [scanWhole_leaving delimited]
  cases first : scanWhole text with
  | none =>
      rw [first] at scanned
      cases scanned
  | some whole =>
      rw [first] at scanned
      simp only [Option.bind_eq_bind, Option.bind_some, Option.pure_def, Option.some.injEq,
        Prod.mk.injEq] at scanned
      obtain ⟨value, left⟩ := scanned
      simp only [Option.map_some, Option.bind_eq_bind, Option.bind_some, leaving,
        scanOptional_fraction_leaving delimited, scanExponent_leaving delimited left, value, left]
      rfl

/-- A scanned number is read back. -/
theorem scanNumber_leaving {literal : PyText}
    (scanned : scanNumber literal = some (literal, [])) :
    scanNumber (literal ++ more) = some (literal, more) := by
  cases literal with
  | nil => cases scanned
  | cons point rest =>
      rw [List.cons_append, scanNumber]
      rw [scanNumber] at scanned
      by_cases sign : point = ofChar '-'
      · rw [if_pos sign, Option.map_eq_some_iff] at scanned
        obtain ⟨⟨unsigned, left⟩, found, same⟩ := scanned
        obtain ⟨rfl, rfl⟩ : unsigned = rest ∧ left = [] := by simpa using same
        rw [if_pos sign, scanUnsigned_leaving delimited found, Option.map_some]
      · rw [if_neg sign] at scanned
        rw [if_neg sign, ← List.cons_append, scanUnsigned_leaving delimited scanned]

end Scans

/-! ## The characters of a number -/

/-- The characters of a number that is no name. -/
def isNumeral (point : CodePoint) : Bool :=
  isDigit point || point ∈ [ofChar '.', ofChar 'e', ofChar 'E', ofChar '+', ofChar '-']

section Characters

variable {text part rest : PyText}

/-- What is scanned has the characters of a number. -/
theorem all_scanDigits (scanned : scanDigits text = some (part, rest)) :
    part.all isNumeral = true := by
  rw [scanDigits] at scanned
  split at scanned
  · cases scanned
  · cases scanned
    refine List.all_eq_true.mpr fun point among => ?_
    rw [isNumeral, List.all_eq_true.mp List.all_takeWhile point among, Bool.true_or]

theorem all_scanWhole (scanned : scanWhole text = some (part, rest)) :
    part.all isNumeral = true := by
  cases text with
  | nil => cases scanned
  | cons point tail =>
      rw [scanWhole] at scanned
      split at scanned
      · rename_i zero
        cases scanned
        rw [zero]
        decide
      · exact all_scanDigits scanned

theorem all_scanFraction (scanned : scanFraction text = some (part, rest)) :
    part.all isNumeral = true := by
  cases text with
  | nil => cases scanned
  | cons point tail =>
      rw [scanFraction] at scanned
      split at scanned
      · rename_i isPoint
        obtain ⟨⟨digits, left⟩, found, same⟩ := Option.map_eq_some_iff.mp scanned
        cases same
        rw [List.all_cons, all_scanDigits found, isPoint]
        decide
      · cases scanned

theorem all_scanExponent (scanned : scanExponent text = some (part, rest)) :
    part.all isNumeral = true := by
  have letters : ∀ point : CodePoint, point = ofChar 'e' ∨ point = ofChar 'E' →
      isNumeral point = true := by
    rintro point (rfl | rfl) <;> decide
  have signs : ∀ point : CodePoint, point = ofChar '+' ∨ point = ofChar '-' →
      isNumeral point = true := by
    rintro point (rfl | rfl) <;> decide
  cases text with
  | nil => cases scanned
  | cons point tail =>
      rw [scanExponent.eq_def] at scanned
      dsimp only at scanned
      split at scanned
      · rename_i letter
        cases tail with
        | nil => cases scanned
        | cons sign after =>
            dsimp only at scanned
            split at scanned
            · rename_i signed
              obtain ⟨⟨digits, left⟩, found, same⟩ := Option.map_eq_some_iff.mp scanned
              cases same
              rw [List.all_cons, List.all_cons, all_scanDigits found, letters point letter,
                signs sign signed]
              rfl
            · obtain ⟨⟨digits, left⟩, found, same⟩ := Option.map_eq_some_iff.mp scanned
              cases same
              rw [List.all_cons, all_scanDigits found, letters point letter]
              rfl
      · cases scanned

theorem all_scanOptional {scan : PyText → Option (PyText × PyText)}
    (all : ∀ {text part rest}, scan text = some (part, rest) → part.all isNumeral = true)
    (text : PyText) : (scanOptional scan text).1.all isNumeral = true := by
  rw [scanOptional]
  cases found : scan text with
  | none => rfl
  | some scanned => exact @all text scanned.1 scanned.2 found

theorem all_scanUnsigned (scanned : scanUnsigned text = some (part, rest)) :
    part.all isNumeral = true := by
  unfold scanUnsigned at scanned
  cases first : scanWhole text with
  | none =>
      rw [first] at scanned
      cases scanned
  | some whole =>
      rw [first] at scanned
      simp only [Option.bind_eq_bind, Option.bind_some, Option.pure_def, Option.some.injEq,
        Prod.mk.injEq] at scanned
      rw [← scanned.1, List.all_append, List.all_append, all_scanWhole first,
        all_scanOptional all_scanFraction, all_scanOptional all_scanExponent]
      rfl

theorem all_scanNumber (scanned : scanNumber text = some (part, rest)) :
    part.all isNumeral = true := by
  cases text with
  | nil => cases scanned
  | cons point tail =>
      rw [scanNumber] at scanned
      split at scanned
      · rename_i sign
        obtain ⟨⟨unsigned, left⟩, found, same⟩ := Option.map_eq_some_iff.mp scanned
        cases same
        rw [List.all_cons, all_scanUnsigned found, sign]
        decide
      · exact all_scanUnsigned scanned

end Characters

/-- A number is within printable ASCII. -/
theorem all_isNumber {literal : PyText} (number : isNumber literal = true) :
    literal.all (fun point => 0x20 ≤ point.val && point.val ≤ 0x7E) = true := by
  rw [isNumber, Bool.or_eq_true, decide_eq_true_eq, decide_eq_true_eq] at number
  rcases number with named | scanned
  · have printable : ∀ name ∈ numberNames,
        name.all (fun point => 0x20 ≤ point.val && point.val ≤ 0x7E) = true := by decide
    exact printable literal named
  · refine List.all_eq_true.mpr fun point among => ?_
    have numeral := List.all_eq_true.mp (all_scanNumber scanned) point among
    simp only [isNumeral, isDigit, Bool.or_eq_true, Bool.and_eq_true, decide_eq_true_eq,
      List.mem_cons, List.not_mem_nil, or_false] at numeral
    rw [Bool.and_eq_true, decide_eq_true_eq, decide_eq_true_eq]
    rcases numeral with digit | rfl | rfl | rfl | rfl | rfl
    · omega
    all_goals decide

/-- What a number begins with. -/
theorem exists_head_of_isNumber {literal : PyText} (number : isNumber literal = true) :
    ∃ point rest, literal = point :: rest ∧
      (isNumeral point = true ∨ point = ofChar 'N' ∨ point = ofChar 'I') := by
  rw [isNumber, Bool.or_eq_true, decide_eq_true_eq, decide_eq_true_eq] at number
  rcases number with named | scanned
  · simp only [numberNames, List.mem_cons, List.not_mem_nil, or_false] at named
    rcases named with rfl | rfl | rfl
    · exact ⟨ofChar 'N', _, rfl, .inr (.inl rfl)⟩
    · exact ⟨ofChar 'I', _, rfl, .inr (.inr rfl)⟩
    · exact ⟨ofChar '-', _, rfl, .inl (by decide)⟩
  · cases literal with
    | nil => cases scanned
    | cons point rest =>
        have all := all_scanNumber scanned
        rw [List.all_cons, Bool.and_eq_true] at all
        exact ⟨point, rest, rfl, .inl all.1⟩

/-- No name of a document is read where a number with digits is. -/
theorem not_prefix_number {literal more name : PyText}
    (scanned : scanNumber literal = some (literal, [])) (among : name ∈ names.map Prod.fst) :
    ¬ name <+: literal ++ more := by
  intro isStart
  have all := all_scanNumber scanned
  have begins : ∀ name ∈ names.map Prod.fst,
      name = ofChar '-' :: ofChar 'I' :: ofString "nfinity" ∨
        (name.head?.any fun point => !isNumeral point) = true := by decide
  cases literal with
  | nil => cases scanned
  | cons point rest =>
      rw [List.all_cons, Bool.and_eq_true] at all
      rcases begins name among with rfl | letter
      · obtain ⟨rfl, within⟩ := List.cons_prefix_cons.mp isStart
        rw [scanNumber, if_pos rfl, Option.map_eq_some_iff] at scanned
        obtain ⟨unsigned, found, -⟩ := scanned
        cases rest with
        | nil => cases found
        | cons second rest =>
            rw [List.all_cons, Bool.and_eq_true] at all
            obtain ⟨rfl, -⟩ := List.cons_prefix_cons.mp within
            exact absurd all.2.1 (by decide)
      · cases name with
        | nil => cases letter
        | cons first tail =>
            obtain ⟨rfl, -⟩ := List.cons_prefix_cons.mp isStart
            rw [List.head?_cons, Option.any_some, all.1] at letter
            cases letter

/-- A number is read back. -/
theorem parseAtom_number {literal more : PyText} (number : isNumber literal = true)
    (delimited : Delimited more) :
    parseAtom (literal ++ more) = some (.number literal, more) := by
  rw [isNumber, Bool.or_eq_true, decide_eq_true_eq, decide_eq_true_eq] at number
  rcases number with named | scanned
  · simp only [numberNames, List.mem_cons, List.not_mem_nil, or_false] at named
    rcases named with rfl | rfl | rfl <;> rfl
  · have noName : (names.find? fun name => name.1.isPrefixOf (literal ++ more)) = none :=
      List.find?_eq_none.mpr fun name among isStart =>
        not_prefix_number scanned (List.mem_map_of_mem among)
          (List.isPrefixOf_iff_prefix.mp isStart)
    rw [parseAtom, noName]
    dsimp only
    rw [scanNumber_leaving delimited scanned]
    rfl

end Orchestrator.Foundation.Json
