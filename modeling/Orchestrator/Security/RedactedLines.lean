import Mathlib.Data.List.DropRight
import Orchestrator.Foundation.Lines
import Orchestrator.Foundation.OrderedDict
import Orchestrator.Security.Redaction

/-! # The redaction of JSON lines

Each line of a stream is decoded, walked and written again, so that a line that was a document
stays one. A line that is no document is redacted as a text.
-/

namespace Orchestrator.Security

open Orchestrator.Foundation PyText

/-! ## What the reader makes of a document -/

/-- How a float is written: as a number. -/
structure FloatRepr where
  repr : PyText → PyText
  number : ∀ literal, Json.isNumber (repr literal) = true

/-- The most digits that an integer is read from. -/
def maxIntegerDigits : Nat := 4300

def isInteger (literal : PyText) : Bool :=
  literal.all fun point => Json.isDigit point || point = ofChar '-'

/-- `int(digits)`. -/
def digitsValue (digits : PyText) : Nat :=
  digits.foldl (fun value digit => 10 * value + (digit.val - 48)) 0

/-- `str(int(literal))`. -/
def writtenInteger (literal : PyText) : Option PyText :=
  let digits := literal.filter Json.isDigit
  if maxIntegerDigits < digits.length then none
  else if literal.head? = some (ofChar '-') ∧ digitsValue digits ≠ 0 then
    some (ofChar '-' :: Json.naturalLiteral (digitsValue digits))
  else some (Json.naturalLiteral (digitsValue digits))

section Reading

variable (floats : FloatRepr)

/-- A number as it is written once it was read. -/
def writtenNumber (literal : PyText) : Option PyText :=
  if isInteger literal then writtenInteger literal
  else if literal ∈ Json.numberNames then some literal
  else some (floats.repr literal)

mutual

/-- The value of a document: its numbers converted, its objects dictionaries. -/
def valueOf : Json → Option Json
  | .number literal => (writtenNumber floats literal).map .number
  | .array items => (valuesOf items).map .array
  | .object members => (memberValues members).map fun members =>
      .object (OrderedDict.ofItems members).items
  | .null => some .null
  | .bool value => some (.bool value)
  | .string value => some (.string value)

def valuesOf : List Json → Option (List Json)
  | [] => some []
  | item :: items =>
      (valueOf item).bind fun value => (valuesOf items).map fun values => value :: values

def memberValues : List (PyText × Json) → Option (List (PyText × Json))
  | [] => some []
  | (key, item) :: members =>
      (valueOf item).bind fun value =>
        (memberValues members).map fun values => (key, value) :: values

end

/-- `json.loads(payload)`, or none where it raises a `ValueError`. -/
def decodePayload (payload : PyText) : Option Json := (Json.loads payload).bind (valueOf floats)

end Reading

/-! ## The stream -/

section Streams

variable (words : WordTest) (floats : FloatRepr) (extraSecrets : List PyText)

/-- `raw.rstrip("\r\n")`. -/
def payloadOf (raw : PyText) : PyText :=
  raw.rdropWhile fun point => point.val = 10 || point.val = 13

/-- What is written for one line. -/
def redactPayload (payload : PyText) : PyText :=
  match decodePayload floats payload with
  | none => redactText words extraSecrets payload
  | some document => (redactNode words extraSecrets document).line

def redactRaw (raw : PyText) : PyText :=
  let payload := payloadOf raw
  if strip payload = [] then raw
  else redactPayload words floats extraSecrets payload ++ raw.drop payload.length

/-- `redact_jsonl`. -/
def redactJsonl (text : PyText) : PyText :=
  (splitKeepEnds text).flatMap (redactRaw words floats extraSecrets)

end Streams

/-! ## What a redacted stream keeps -/

section Law

variable (words : WordTest) (extraSecrets : List PyText)

/-- A text contains the shape of a credential: a known secret that stands alone, an assignment to
a sensitive name, or a token. -/
def CarriesCredential (text : PyText) : Prop :=
  (∃ secret ∈ literalSecrets extraSecrets, ∃ start stop,
      .found start stop ∈ (literalSecret words secret).pieces text) ∨
    (∃ start stop, .found start stop ∈ assignment.pieces text ∧
      isSensitiveKey ((stop.group? 1).getD []) = true) ∨
    ∃ pattern ∈ tokenPatterns words, ∃ start stop, .found start stop ∈ pattern.pieces text

mutual

/-- A document of the same keys, items and other values, in which a text differs where it carried a
credential, and what is under an exempt key is the mark. -/
inductive Scrubbed (exempt : PyText → Bool) : Json → Json → Prop
  | null : Scrubbed exempt .null .null
  | bool (value : Bool) : Scrubbed exempt (.bool value) (.bool value)
  | number (literal : PyText) : Scrubbed exempt (.number literal) (.number literal)
  | string {value after : PyText}
      (differs : after ≠ value → CarriesCredential words extraSecrets value) :
      Scrubbed exempt (.string value) (.string after)
  | array {items after : List Json} (each : ScrubbedItems exempt items after) :
      Scrubbed exempt (.array items) (.array after)
  | object {members after : List (PyText × Json)} (each : ScrubbedMembers exempt members after) :
      Scrubbed exempt (.object members) (.object after)

inductive ScrubbedItems (exempt : PyText → Bool) : List Json → List Json → Prop
  | nil : ScrubbedItems exempt [] []
  | cons {item after : Json} {items others : List Json} (here : Scrubbed exempt item after)
      (later : ScrubbedItems exempt items others) :
      ScrubbedItems exempt (item :: items) (after :: others)

inductive ScrubbedMembers (exempt : PyText → Bool) :
    List (PyText × Json) → List (PyText × Json) → Prop
  | nil : ScrubbedMembers exempt [] []
  | plain {key : PyText} {value after : Json} {members others : List (PyText × Json)}
      (here : Scrubbed exempt value after) (later : ScrubbedMembers exempt members others) :
      ScrubbedMembers exempt ((key, value) :: members) ((key, after) :: others)
  | exempted {key : PyText} {value : Json} {members others : List (PyText × Json)}
      (sensitive : exempt key = true) (later : ScrubbedMembers exempt members others) :
      ScrubbedMembers exempt ((key, value) :: members) ((key, .string redacted) :: others)

end

variable (floats : FloatRepr)

/-- A stream of lines, each with its end. -/
def streamOf (lines : List (PyText × PyText)) : PyText := lines.flatMap fun line => line.1 ++ line.2

/-- One written line is a document on its line that is scrubbed. -/
def LineKept (exempt : PyText → Bool) (payload output : PyText) : Prop :=
  (∀ point ∈ output, point.val ≠ 10 ∧ point.val ≠ 13) ∧
    ∃ document after, decodePayload floats payload = some document ∧
      Json.loads output = some after ∧ Scrubbed words extraSecrets exempt document after

/-- The written stream has a line for each line, with its end. -/
def StructureKept (exempt : PyText → Bool) (lines : List (PyText × PyText)) : Prop :=
  ∃ outputs : List PyText,
    List.Forall₂ (fun line output => LineKept words extraSecrets floats exempt line.1 output)
      lines outputs ∧
    redactJsonl words floats extraSecrets (streamOf lines) =
      streamOf (List.zipWith (fun line output => (output, line.2)) lines outputs)

end Law

/-! ## Texts -/

section Texts

variable (words : WordTest) (extraSecrets : List PyText)

/-- What a pass of replacements changes, a pattern of it matches. -/
theorem exists_found_of_foldl_ne {patterns : List (Regex CodePoint)} {text : PyText}
    (differs : patterns.foldl replaceAll text ≠ text) :
    ∃ pattern ∈ patterns, ∃ start stop, .found start stop ∈ pattern.pieces text := by
  induction patterns with
  | nil => exact absurd rfl differs
  | cons pattern patterns ih =>
      by_cases same : replaceAll text pattern = text
      · rw [List.foldl_cons, same] at differs
        obtain ⟨later, among, found⟩ := ih differs
        exact ⟨later, List.mem_cons_of_mem _ among, found⟩
      · obtain ⟨start, stop, found, -⟩ := Regex.exists_found_of_sub_ne same
        exact ⟨pattern, List.mem_cons_self, start, stop, found⟩

/-- Only a text that carries a credential is changed. -/
theorem carriesCredential_of_redactText_ne {text : PyText}
    (differs : redactText words extraSecrets text ≠ text) :
    CarriesCredential words extraSecrets text := by
  by_cases literal : redactLiterals words extraSecrets text = text
  · rw [redactText, literal] at differs
    by_cases assigned : assignment.sub redactAssignment text = text
    · rw [assigned] at differs
      exact .inr (.inr (exists_found_of_foldl_ne differs))
    · obtain ⟨start, stop, found, other⟩ := Regex.exists_found_of_sub_ne assigned
      refine .inr (.inl ⟨start, stop, found, ?_⟩)
      by_contra plain
      exact other (if_neg plain)
  · rw [redactLiterals, ← List.foldl_map] at literal
    obtain ⟨pattern, among, found⟩ := exists_found_of_foldl_ne literal
    obtain ⟨secret, listed, rfl⟩ := List.mem_map.mp among
    exact .inl ⟨secret, listed, found⟩

/-! ## Documents -/

mutual

/-- Redaction keeps the structure of a document, but for what is under a sensitive key. -/
theorem scrubbed_redactNode : ∀ document : Json,
    Scrubbed words extraSecrets isSensitiveKey document (redactNode words extraSecrets document)
  | .null => .null
  | .bool value => .bool value
  | .number literal => .number literal
  | .string value => by
      rw [redactNode]
      exact .string (carriesCredential_of_redactText_ne words extraSecrets)
  | .array items => by
      rw [redactNode]
      exact .array (scrubbed_redactItems items)
  | .object members => by
      rw [redactNode]
      exact .object (scrubbed_redactMembers members)

theorem scrubbed_redactItems : ∀ items : List Json,
    ScrubbedItems words extraSecrets isSensitiveKey items (redactItems words extraSecrets items)
  | [] => .nil
  | item :: items => by
      rw [redactItems]
      exact .cons (scrubbed_redactNode item) (scrubbed_redactItems items)

theorem scrubbed_redactMembers : ∀ members : List (PyText × Json),
    ScrubbedMembers words extraSecrets isSensitiveKey members
      (redactMembers words extraSecrets members)
  | [] => .nil
  | (key, value) :: members => by
      rw [redactMembers]
      by_cases sensitive : isSensitiveKey key = true
      · rw [if_pos sensitive]
        exact .exempted sensitive (scrubbed_redactMembers members)
      · rw [if_neg sensitive]
        exact .plain (scrubbed_redactNode value) (scrubbed_redactMembers members)

end

variable (floats : FloatRepr)

/-- A negative integer is a number. -/
theorem isNumber_negative {literal : PyText} (natural : Json.isNatural literal = true) :
    Json.isNumber (ofChar '-' :: literal) = true := by
  have delimited : Json.Delimited [] := by
    rintro point ⟨⟩
  have scanned := Json.scanNumber_natural natural delimited
  rw [List.append_nil] at scanned
  obtain ⟨point, digits, rfl, digit⟩ := Json.exists_digit_of_isNatural natural
  have unsigned : point ≠ ofChar '-' := by
    rintro rfl
    exact absurd digit (by decide)
  rw [Json.scanNumber, if_neg unsigned] at scanned
  rw [Json.isNumber, Json.scanNumber, if_pos rfl, scanned, Option.map_some]
  exact (congrArg (_ || ·) (decide_eq_true rfl)).trans (Bool.or_true _)

theorem isNumber_writtenNumber {literal written : PyText}
    (conversion : writtenNumber floats literal = some written) : Json.isNumber written = true := by
  rw [writtenNumber] at conversion
  split at conversion
  · rw [writtenInteger] at conversion
    split at conversion
    · cases conversion
    · split at conversion
      · cases conversion
        exact isNumber_negative (Json.isNatural_naturalLiteral _)
      · cases conversion
        exact Json.isNumber_of_isNatural (Json.isNatural_naturalLiteral _)
  · split at conversion
    · next named =>
        cases conversion
        rw [Json.isNumber, decide_eq_true named, Bool.true_or]
    · cases conversion
      exact floats.number literal

mutual

/-- The numbers of a value are numbers. -/
theorem numeric_valueOf : ∀ {document value : Json}, valueOf floats document = some value →
    value.numeric = true
  | .number _, _, read => by
      rw [valueOf] at read
      obtain ⟨written, conversion, rfl⟩ := Option.map_eq_some_iff.mp read
      exact isNumber_writtenNumber floats conversion
  | .array _, _, read => by
      rw [valueOf] at read
      obtain ⟨values, each, rfl⟩ := Option.map_eq_some_iff.mp read
      rw [Json.numeric]
      exact numericItems_valuesOf each
  | .object _, _, read => by
      rw [valueOf] at read
      obtain ⟨values, each, rfl⟩ := Option.map_eq_some_iff.mp read
      have fine := numericMembers_memberValues each
      rw [Json.numericMembers_eq_all, List.all_eq_true] at fine
      rw [Json.numeric, Json.numericMembers_eq_all, List.all_eq_true]
      intro member among
      obtain ⟨before, later, rfl, -⟩ := OrderedDict.mem_ofItems_iff.mp among
      exact fine member (List.mem_append_right _ List.mem_cons_self)
  | .null, _, read => by
      cases read
      rfl
  | .bool _, _, read => by
      cases read
      rfl
  | .string _, _, read => by
      cases read
      rfl

theorem numericItems_valuesOf : ∀ {items values : List Json}, valuesOf floats items = some values →
    Json.numericItems values = true
  | [], _, read => by
      cases read
      rfl
  | _ :: _, _, read => by
      rw [valuesOf] at read
      obtain ⟨value, here, read⟩ := Option.bind_eq_some_iff.mp read
      obtain ⟨values, later, rfl⟩ := Option.map_eq_some_iff.mp read
      rw [Json.numericItems, numeric_valueOf here, numericItems_valuesOf later, Bool.and_self]

theorem numericMembers_memberValues : ∀ {members values : List (PyText × Json)},
    memberValues floats members = some values → Json.numericMembers values = true
  | [], _, read => by
      cases read
      rfl
  | (_, _) :: _, _, read => by
      rw [memberValues] at read
      obtain ⟨value, here, read⟩ := Option.bind_eq_some_iff.mp read
      obtain ⟨values, later, rfl⟩ := Option.map_eq_some_iff.mp read
      rw [Json.numericMembers, numeric_valueOf here, numericMembers_memberValues later,
        Bool.and_self]

end

end Texts

/-! ## Lines -/

section Lines

/-- What is blank to the eye is blank throughout. -/
theorem isSpace_of_strip_nil {text : PyText} (blank : strip text = []) :
    ∀ point ∈ text, isSpace point = true := by
  rw [strip, List.reverse_eq_nil_iff, List.dropWhile_eq_nil_iff] at blank
  have dropped : text.dropWhile isSpace = [] := by
    by_contra filled
    have first := List.head_dropWhile_not isSpace filled
    rw [blank _ (List.mem_reverse.mpr (List.head_mem filled))] at first
    cases first
  exact List.dropWhile_eq_nil_iff.mp dropped

/-- No document begins with a blank. -/
theorem parseValue_space {point : CodePoint} (space : isSpace point = true) (fuel : Nat)
    (rest : PyText) : Json.parseValue fuel (point :: rest) = none := by
  have apart (letter : Char) (graphic : isSpace (ofChar letter) = false) : point ≠
    ofChar letter := by
    rintro rfl
    rw [graphic] at space
    cases space
  cases fuel with
  | zero => rfl
  | succ fuel =>
      have unnamed : Json.names.find? (fun name => name.1.isPrefixOf (point :: rest)) = none := by
        refine List.find?_eq_none.mpr fun name listed begins => ?_
        obtain ⟨first, letters, shape, graphic⟩ : ∃ first letters, name.1 = first :: letters ∧
            isSpace first = false := by
          revert name
          simp only [Json.names, List.forall_mem_cons]
          exact ⟨fun _ => ⟨_, _, rfl, rfl⟩, fun _ => ⟨_, _, rfl, rfl⟩, fun _ => ⟨_, _, rfl, rfl⟩,
            fun _ => ⟨_, _, rfl, rfl⟩, fun _ => ⟨_, _, rfl, rfl⟩, fun _ => ⟨_, _, rfl, rfl⟩,
            List.forall_mem_nil _⟩
        rw [shape, List.isPrefixOf_cons_cons, Bool.and_eq_true, beq_iff_eq] at begins
        rw [begins.1, space] at graphic
        cases graphic
      have nondigit : Json.isDigit point = false := by
        rw [Bool.eq_false_iff]
        intro digit
        rw [Json.isDigit, Bool.and_eq_true, decide_eq_true_eq, decide_eq_true_eq] at digit
        simp only [isSpace, Bool.or_eq_true, Bool.and_eq_true, decide_eq_true_eq] at space
        omega
      have unread : Json.scanNumber (point :: rest) = none := by
        rw [Json.scanNumber, if_neg (apart '-' rfl), Json.scanUnsigned, Json.scanWhole,
          if_neg (apart '0' rfl), Json.scanDigits, List.takeWhile_cons, nondigit]
        rfl
      rw [Json.parseValue, if_neg (apart '"' rfl), if_neg (apart '\x7b' rfl),
        if_neg (apart '[' rfl),
        Json.parseAtom, unnamed, unread]
      rfl

/-- A blank payload is no document. -/
theorem loads_of_strip_nil {payload : PyText} (blank : strip payload = []) :
    Json.loads payload = none := by
  have spaces := isSpace_of_strip_nil blank
  rw [Json.loads]
  cases shape : Json.skipSpace payload with
  | nil =>
      cases payload.length with
      | zero => rfl
      | succ fuel => rfl
  | cons point rest =>
      have among : point ∈ payload :=
        (List.dropWhile_suffix _).subset (shape ▸ List.mem_cons_self)
      rw [parseValue_space (spaces point among)]
      rfl

/-- A payload is what stands before the end of its line. -/
theorem payloadOf_append {payload ending : PyText}
    (plain : payload.all (fun point => !isLineEnd point) = true)
    (ends : ending = [10] ∨ ending = [13, 10]) : payloadOf (payload ++ ending) = payload := by
  have whole : payload.rdropWhile (fun point => point.val = 10 || point.val = 13) = payload := by
    refine List.rdropWhile_eq_self_iff.mpr fun filled broken => ?_
    have last := List.all_eq_true.mp plain _ (List.getLast_mem filled)
    simp only [Bool.not_eq_true', isLineEnd, Bool.or_eq_false_iff, Bool.and_eq_false_iff,
      decide_eq_false_iff_not] at last
    simp only [Bool.or_eq_true, decide_eq_true_eq] at broken
    omega
  rcases ends with rfl | rfl
  · rw [payloadOf, List.rdropWhile_concat_pos _ _ _ rfl, whole]
  · have split : payload ++ [13, 10] = (payload ++ [13]) ++ [10] := by
      rw [List.append_assoc]
      rfl
    rw [payloadOf, split, List.rdropWhile_concat_pos _ _ _ rfl,
      List.rdropWhile_concat_pos _ _ _ rfl, whole]

variable (words : WordTest) (floats : FloatRepr) (extraSecrets : List PyText)

/-- A payload that is a document is written as a scrubbed one, on its line. -/
theorem lineKept_redactPayload {payload : PyText} {document : Json}
    (decoded : decodePayload floats payload = some document) :
    LineKept words extraSecrets floats isSensitiveKey payload
      (redactPayload words floats extraSecrets payload) := by
  obtain ⟨read, -, value⟩ := Option.bind_eq_some_iff.mp decoded
  have fine := numeric_redactNode words extraSecrets document (numeric_valueOf floats value)
  rw [redactPayload, decoded]
  refine ⟨fun point among => ?_, document, _, decoded, Json.loads_line fine,
    scrubbed_redactNode words extraSecrets document⟩
  have visible := Json.le_of_mem_line fine among
  omega

theorem redactRaw_append {payload ending : PyText} {document : Json}
    (plain : payload.all (fun point => !isLineEnd point) = true)
    (ends : ending = [10] ∨ ending = [13, 10])
    (decoded : decodePayload floats payload = some document) :
    redactRaw words floats extraSecrets (payload ++ ending) =
      redactPayload words floats extraSecrets payload ++ ending := by
  have filled : strip payload ≠ [] := by
    intro blank
    rw [decodePayload, loads_of_strip_nil blank] at decoded
    cases decoded
  rw [redactRaw, payloadOf_append plain ends, if_neg filled, List.drop_left]

/-- Every stream of documents keeps its lines, with the values of sensitive keys exempt. -/
theorem structureKept (lines : List (PyText × PyText))
    (ended : ∀ line ∈ lines, line.2 = [10] ∨ line.2 = [13, 10])
    (unbroken : ∀ line ∈ lines, line.1.all (fun point => !isLineEnd point) = true)
    (documents : ∀ line ∈ lines, (decodePayload floats line.1).isSome = true) :
    StructureKept words extraSecrets floats isSensitiveKey lines := by
  induction lines with
  | nil => exact ⟨[], .nil, rfl⟩
  | cons line lines ih =>
      obtain ⟨ends, ended⟩ := List.forall_mem_cons.mp ended
      obtain ⟨plain, unbroken⟩ := List.forall_mem_cons.mp unbroken
      obtain ⟨decodes, documents⟩ := List.forall_mem_cons.mp documents
      obtain ⟨document, decoded⟩ := Option.isSome_iff_exists.mp decodes
      obtain ⟨outputs, each, written⟩ := ih ended unbroken documents
      refine ⟨redactPayload words floats extraSecrets line.1 :: outputs,
        .cons (lineKept_redactPayload words floats extraSecrets decoded) each, ?_⟩
      rw [redactJsonl] at written
      rw [redactJsonl, streamOf, List.flatMap_cons, splitKeepEnds_append plain ends,
        List.flatMap_cons, redactRaw_append words floats extraSecrets plain ends decoded,
        ← streamOf, written, List.zipWith_cons_cons, streamOf, streamOf, List.flatMap_cons]

/-! ### A secret and a blank -/

/-- Floats that are written as they are. -/
def FloatRepr.literal : FloatRepr where
  repr literal := if Json.isNumber literal then literal else ofString "0.0"
  number literal := by
    by_cases number : Json.isNumber literal = true
    · rw [if_pos number, number]
    · rw [if_neg number]
      rfl

/-- A document with a note and a sensitive key. -/
def keyedNote (value : Json) : Json :=
  .object [(ofString "note", .string (ofString "a b")), (ofString "api_key", value)]

theorem decodePayload_keyedNote {value : Json} (fine : value.numeric = true)
    (read : valueOf .literal value = some value) :
    decodePayload .literal (keyedNote value).line = some (keyedNote value) := by
  have numeric : (keyedNote value).numeric = true := by
    rw [keyedNote, Json.numeric, Json.numericMembers, Json.numericMembers, Json.numericMembers,
      fine]
    rfl
  have members : memberValues .literal
      [(ofString "note", .string (ofString "a b")), (ofString "api_key", value)] =
        some [(ofString "note", .string (ofString "a b")), (ofString "api_key", value)] := by
    rw [memberValues, memberValues, memberValues, valueOf, read]
    rfl
  rw [decodePayload, Json.loads_line numeric, Option.bind_some, keyedNote, valueOf, members]
  rfl

theorem plain_keyedNote :
    (keyedNote .null).line.all (fun point => !isLineEnd point) = true := by
  rw [Json.noEnd_line rfl]
  decide +kernel

/-- A line that ends as they do on Windows. -/
theorem structureKept_keyedNote :
    StructureKept WordTest.ofAscii [] .literal isSensitiveKey
      [((keyedNote .null).line, [13, 10])] := by
  apply structureKept
  · exact List.forall_mem_singleton.mpr (.inr rfl)
  · exact List.forall_mem_singleton.mpr plain_keyedNote
  · rw [List.forall_mem_singleton, decodePayload_keyedNote rfl rfl]
    rfl

/-- What is under a sensitive key is replaced, also where it is no text. -/
theorem not_structureKept_keyedNote :
    (decodePayload .literal (keyedNote .null).line).isSome = true ∧
      ¬ StructureKept WordTest.ofAscii [] .literal (fun _ => false)
        [((keyedNote .null).line, [10])] := by
  have decoded : decodePayload .literal (keyedNote .null).line = some (keyedNote .null) :=
    decodePayload_keyedNote rfl rfl
  refine ⟨by rw [decoded]; rfl, ?_⟩
  rintro ⟨outputs, each, written⟩
  obtain ⟨output, rest, here, none, rfl⟩ := List.forall₂_cons_left_iff.mp each
  cases none
  have shown : redactJsonl WordTest.ofAscii .literal []
    (streamOf [((keyedNote .null).line, [10])]) =
      (redactNode WordTest.ofAscii [] (keyedNote .null)).line ++ [10] := by
    rw [redactJsonl, streamOf, List.flatMap_singleton, ← List.append_nil (_ ++ _),
      splitKeepEnds_append plain_keyedNote (.inl rfl), List.flatMap_cons,
      redactRaw_append _ _ _ plain_keyedNote (.inl rfl) decoded, redactPayload, decoded]
    exact List.append_nil _
  have same : (redactNode WordTest.ofAscii [] (keyedNote .null)).line = output := by
    rw [shown] at written
    exact List.append_cancel_right (written.trans (List.append_nil (output ++ [10])))
  obtain ⟨-, document, after, known, read, scrubbed⟩ := here
  have fine : (redactNode WordTest.ofAscii [] (keyedNote .null)).numeric = true :=
    numeric_redactNode _ _ _ rfl
  have marked : isSensitiveKey (ofString "api_key") = true := by decide +kernel
  have unmarked : isSensitiveKey (ofString "note") = false := by decide +kernel
  rw [← same, Json.loads_line fine, keyedNote, redactNode, redactMembers, redactMembers, marked,
    unmarked] at read
  rw [decoded] at known
  cases known
  cases read
  cases scrubbed with
  | object each =>
      cases each with
      | plain first later =>
          cases later with
          | exempted exempt last => cases exempt
          | plain second last => cases second

end Lines

end Orchestrator.Security
