import Mathlib.Data.List.Basic
import Mathlib.Tactic.Common

/-! # Texts of code points

A Python `str` is a list of code points, lone surrogates included; UTF-8 has no encoding
for those. What is encoded is decoded to the same text.
-/

namespace Orchestrator.Foundation

/-- A code point, a surrogate or not. -/
abbrev CodePoint := Fin 0x110000

/-- A Python text. -/
abbrev PyText := List CodePoint

namespace PyText

instance neZeroPoints : @NeZero Nat Zero.ofOfNat0 0x110000 := ⟨Nat.succ_ne_zero _⟩

instance lawfulBEq_codePoint : LawfulBEq CodePoint := inferInstance

instance lawfulBEq : LawfulBEq PyText := inferInstance

/-- The code point of a number, when it is one. -/
def pointOf (number : Nat) : Option CodePoint :=
  if bounded : number < 0x110000 then some ⟨number, bounded⟩ else none

theorem pointOf_val (point : CodePoint) : pointOf point.val = some point := dif_pos point.isLt

/-- A character's code point. -/
def ofChar (letter : Char) : CodePoint :=
  ⟨letter.toNat, by
    rcases letter.valid with low | ⟨-, high⟩
    · exact Nat.lt_trans low (by decide)
    · exact high⟩

/-- The text of a string. -/
def ofString (text : String) : PyText := text.toList.map ofChar

def isSurrogate (point : CodePoint) : Bool := 0xD800 ≤ point.val && point.val < 0xE000

/-- The texts that have a UTF-8 encoding. -/
def encodable (text : PyText) : Bool := text.all fun point => !isSurrogate point

/-! ## UTF-8 -/

/-- The bytes of a code point, whatever it is. -/
def utf8Bytes (point : CodePoint) : List UInt8 :=
  let number := point.val
  if number < 0x80 then [.ofNat number]
  else if number < 0x800 then [.ofNat (0xC0 + number / 64), .ofNat (0x80 + number % 64)]
  else if number < 0x10000 then
    [.ofNat (0xE0 + number / 4096), .ofNat (0x80 + number / 64 % 64), .ofNat (0x80 + number % 64)]
  else
    [.ofNat (0xF0 + number / 262144), .ofNat (0x80 + number / 4096 % 64),
      .ofNat (0x80 + number / 64 % 64), .ofNat (0x80 + number % 64)]

/-- `text.encode("utf-8")`. -/
def encodeUtf8 (text : PyText) : Option (List UInt8) :=
  if encodable text then some (text.flatMap utf8Bytes) else none

/-- The six bits of a continuation byte. -/
def continuation (byte : UInt8) : Option Nat :=
  if 0x80 ≤ byte.toNat ∧ byte.toNat < 0xC0 then some (byte.toNat - 0x80) else none

/-- The code point of a number that its sequence is long enough for, and no surrogate. -/
def decoded (least number : Nat) : Option CodePoint :=
  if least ≤ number then (pointOf number).filter fun point => !isSurrogate point else none

/-- The number of a lead byte within a range, above its continuation bits. -/
def leading (low high : Nat) (byte : UInt8) : Option Nat :=
  if low ≤ byte.toNat ∧ byte.toNat < high then some (byte.toNat - low) else none

/-- The code point of a two-byte sequence. -/
def decodeTwo (first second : UInt8) : Option CodePoint := do
  decoded 0x80 (64 * (← leading 0xC0 0xE0 first) + (← continuation second))

/-- The code point of a three-byte sequence. -/
def decodeThree (first second third : UInt8) : Option CodePoint := do
  decoded 0x800 (4096 * (← leading 0xE0 0xF0 first) + 64 * (← continuation second) +
    (← continuation third))

/-- The code point of a four-byte sequence. -/
def decodeFour (first second third fourth : UInt8) : Option CodePoint := do
  decoded 0x10000 (262144 * (← leading 0xF0 0xF8 first) + 4096 * (← continuation second) +
    64 * (← continuation third) + (← continuation fourth))

/-- One code point of a strict UTF-8 sequence, and the bytes after it. -/
def decodePoint (bytes : List UInt8) : Option (CodePoint × List UInt8) :=
  match bytes with
  | [] => none
  | first :: rest =>
      if first.toNat < 0x80 then (decoded 0 first.toNat).map (·, rest)
      else if first.toNat < 0xE0 then
        match rest with
        | second :: rest => (decodeTwo first second).map (·, rest)
        | [] => none
      else if first.toNat < 0xF0 then
        match rest with
        | second :: third :: rest => (decodeThree first second third).map (·, rest)
        | _ => none
      else
        match rest with
        | second :: third :: fourth :: rest => (decodeFour first second third fourth).map (·, rest)
        | _ => none

/-- Decode at most a number of code points. -/
def decodeWithin : Nat → List UInt8 → Option PyText
  | _, [] => some []
  | 0, _ :: _ => none
  | fuel + 1, bytes => do
      let (point, rest) ← decodePoint bytes
      return point :: (← decodeWithin fuel rest)

/-- `bytes.decode("utf-8", errors="strict")`. -/
def decodeUtf8 (bytes : List UInt8) : Option PyText := decodeWithin bytes.length bytes

theorem utf8Bytes_ne_nil (point : CodePoint) : utf8Bytes point ≠ [] := by
  unfold utf8Bytes
  dsimp only
  split_ifs <;> exact List.cons_ne_nil _ _

theorem decoded_val {point : CodePoint} {least : Nat} (enough : least ≤ point.val)
    (plain : isSurrogate point = false) : decoded least point.val = some point := by
  rw [decoded, if_pos enough, pointOf_val, Option.filter_some, plain]
  rfl

theorem toNat_ofNat {number : Nat} (byte : number < 256) :
    (UInt8.ofNat number).toNat = number := by
  rw [UInt8.toNat_ofNat', Nat.mod_eq_of_lt byte]

theorem continuation_ofNat {bits : Nat} (six : bits < 64) :
    continuation (.ofNat (0x80 + bits)) = some bits := by
  have range : 0x80 ≤ 0x80 + bits ∧ 0x80 + bits < 0xC0 := by omega
  rw [continuation, toNat_ofNat (by omega), if_pos range, Nat.add_sub_cancel_left]

theorem leading_ofNat {low high bits : Nat} (below : low + bits < high) (byte : high ≤ 256) :
    leading low high (.ofNat (low + bits)) = some bits := by
  rw [leading, toNat_ofNat (by omega), if_pos ⟨by omega, below⟩, Nat.add_sub_cancel_left]

section Sequences

variable {point : CodePoint}

theorem decodeTwo_ofNat (plain : isSurrogate point = false) (least : 0x80 ≤ point.val)
    (below : point.val < 0x800) :
    decodeTwo (.ofNat (0xC0 + point.val / 64)) (.ofNat (0x80 + point.val % 64)) = some point := by
  have whole : 64 * (point.val / 64) + point.val % 64 = point.val := by omega
  unfold decodeTwo
  rw [leading_ofNat (by omega) (by omega), continuation_ofNat (by omega)]
  simp only [Option.bind_eq_bind, Option.bind_some, whole]
  exact decoded_val least plain

theorem decodeThree_ofNat (plain : isSurrogate point = false) (least : 0x800 ≤ point.val)
    (below : point.val < 0x10000) :
    decodeThree (.ofNat (0xE0 + point.val / 4096)) (.ofNat (0x80 + point.val / 64 % 64))
      (.ofNat (0x80 + point.val % 64)) = some point := by
  have whole : 4096 * (point.val / 4096) + 64 * (point.val / 64 % 64) + point.val % 64 =
      point.val := by omega
  unfold decodeThree
  rw [leading_ofNat (by omega) (by omega), continuation_ofNat (by omega),
    continuation_ofNat (by omega)]
  simp only [Option.bind_eq_bind, Option.bind_some, whole]
  exact decoded_val least plain

theorem decodeFour_ofNat (plain : isSurrogate point = false) (least : 0x10000 ≤ point.val) :
    decodeFour (.ofNat (0xF0 + point.val / 262144)) (.ofNat (0x80 + point.val / 4096 % 64))
      (.ofNat (0x80 + point.val / 64 % 64)) (.ofNat (0x80 + point.val % 64)) = some point := by
  have bounded := point.isLt
  have whole : 262144 * (point.val / 262144) + 4096 * (point.val / 4096 % 64) +
      64 * (point.val / 64 % 64) + point.val % 64 = point.val := by omega
  unfold decodeFour
  rw [leading_ofNat (by omega) (by omega), continuation_ofNat (by omega),
    continuation_ofNat (by omega), continuation_ofNat (by omega)]
  simp only [Option.bind_eq_bind, Option.bind_some, whole]
  exact decoded_val least plain

/-- A code point is decoded from its bytes. -/
theorem decodePoint_utf8Bytes (plain : isSurrogate point = false) (rest : List UInt8) :
    decodePoint (utf8Bytes point ++ rest) = some (point, rest) := by
  have bounded := point.isLt
  unfold utf8Bytes
  by_cases one : point.val < 0x80
  · simp only [one, if_true, List.cons_append, List.nil_append, decodePoint]
    rw [toNat_ofNat (by omega), if_pos one, decoded_val (Nat.zero_le _) plain, Option.map_some]
  · by_cases two : point.val < 0x800
    · simp only [one, two, if_true, if_false, List.cons_append, List.nil_append, decodePoint]
      rw [toNat_ofNat (by omega), if_neg (by omega), if_pos (by omega),
        decodeTwo_ofNat plain (by omega) two, Option.map_some]
    · by_cases three : point.val < 0x10000
      · simp only [one, two, three, if_true, if_false, List.cons_append, List.nil_append,
          decodePoint]
        rw [toNat_ofNat (by omega), if_neg (by omega), if_neg (by omega), if_pos (by omega),
          decodeThree_ofNat plain (by omega) three, Option.map_some]
      · simp only [one, two, three, if_false, List.cons_append, List.nil_append, decodePoint]
        rw [toNat_ofNat (by omega), if_neg (by omega), if_neg (by omega), if_neg (by omega),
          decodeFour_ofNat plain (by omega), Option.map_some]

end Sequences

theorem decodeWithin_flatMap {text : PyText} (plain : encodable text = true) {fuel : Nat}
    (enough : text.length ≤ fuel) : decodeWithin fuel (text.flatMap utf8Bytes) = some text := by
  induction text generalizing fuel with
  | nil => cases fuel <;> rfl
  | cons point rest ih =>
      cases fuel with
      | zero => cases enough
      | succ fuel =>
          rw [encodable, List.all_cons, Bool.and_eq_true, Bool.not_eq_true'] at plain
          obtain ⟨byte, bytes, shape⟩ := List.exists_cons_of_ne_nil (utf8Bytes_ne_nil point)
          rw [List.flatMap_cons, shape, List.cons_append, decodeWithin]
          · rw [← List.cons_append, ← shape, decodePoint_utf8Bytes plain.1]
            simp only [Option.bind_eq_bind, Option.bind_some,
              ih plain.2 (Nat.le_of_succ_le_succ enough)]
            rfl
          · exact fun none => List.cons_ne_nil _ _ none

theorem length_le_length_flatMap (text : PyText) :
    text.length ≤ (text.flatMap utf8Bytes).length := by
  induction text with
  | nil => exact Nat.le_refl _
  | cons point rest ih =>
      have positive := List.length_pos_of_ne_nil (utf8Bytes_ne_nil point)
      rw [List.flatMap_cons, List.length_append, List.length_cons]
      omega

/-- What is encoded is decoded to the same text. -/
theorem decodeUtf8_of_encodeUtf8 {text : PyText} {bytes : List UInt8}
    (encoded : encodeUtf8 text = some bytes) : decodeUtf8 bytes = some text := by
  unfold encodeUtf8 at encoded
  split at encoded
  · rename_i plain
    cases encoded
    exact decodeWithin_flatMap plain (length_le_length_flatMap text)
  · cases encoded

/-! ## Text operations -/

/-- `str.isspace` of one character. -/
def isSpace (point : CodePoint) : Bool :=
  let number := point.val
  (9 ≤ number && number ≤ 13) || (28 ≤ number && number ≤ 32) || number = 0x85 ||
    number = 0xA0 || number = 0x1680 || (0x2000 ≤ number && number ≤ 0x200A) ||
    number = 0x2028 || number = 0x2029 || number = 0x202F || number = 0x205F || number = 0x3000

/-- `text.strip()`. -/
def strip (text : PyText) : PyText :=
  ((text.dropWhile isSpace).reverse.dropWhile isSpace).reverse

/-- `text.lower()`, within ASCII. -/
def lower (text : PyText) : PyText :=
  text.map fun point =>
    if upper : 65 ≤ point.val ∧ point.val ≤ 90 then ⟨point.val + 32, by omega⟩ else point

/-- `text.upper()`, within ASCII. -/
def upper (text : PyText) : PyText :=
  text.map fun point =>
    if low : 97 ≤ point.val ∧ point.val ≤ 122 then ⟨point.val - 32, by omega⟩ else point

/-- `text.startswith(start)`. -/
def startsWith (text start : PyText) : Bool := start.isPrefixOf text

/-- `text.endswith(tail)`. -/
def endsWith (text tail : PyText) : Bool := tail.isSuffixOf text

/-- `part in text`. -/
def contains (text part : PyText) : Bool := text.tails.any fun rest => part.isPrefixOf rest

/-- The ends of lines of text mode, after a carriage return or not. -/
def newlinesFrom : Bool → PyText → PyText
  | _, [] => []
  | afterReturn, point :: rest =>
      if point.val = 13 then 10 :: newlinesFrom true rest
      else if afterReturn && point.val = 10 then newlinesFrom false rest
      else point :: newlinesFrom false rest

/-- What text mode reads: a carriage return, alone or before a line feed, is a line feed. -/
def universalNewlines (text : PyText) : PyText := newlinesFrom false text

/-- The string of a text, with the replacement character for a surrogate. -/
def asString (text : PyText) : String :=
  String.ofList (text.map fun point =>
    if valid : point.val.isValidChar then Char.ofNatAux point.val valid else '\uFFFD')

/-- The characters that `str.splitlines` ends a line at. -/
def isLineEnd (point : CodePoint) : Bool :=
  let number := point.val
  (10 ≤ number && number ≤ 13) || (28 ≤ number && number ≤ 30) || number = 0x85 ||
    number = 0x2028 || number = 0x2029

/-- The lines of a text with their ends, after the start of the first, its last character first. -/
def keepLines : PyText → PyText → List PyText
  | start, [] => if start = [] then [] else [start.reverse]
  | start, point :: rest =>
      if point.val = 13 then
        match rest with
        | [] => [(point :: start).reverse]
        | next :: after =>
            if next.val = 10 then (next :: point :: start).reverse :: keepLines [] after
            else (point :: start).reverse :: keepLines [] (next :: after)
      else if isLineEnd point then (point :: start).reverse :: keepLines [] rest
      else keepLines (point :: start) rest

/-- `text.splitlines(keepends=True)`. -/
def splitKeepEnds (text : PyText) : List PyText := keepLines [] text

/-- `text.splitlines()`. -/
def splitLines (text : PyText) : List PyText :=
  (splitKeepEnds text).map fun line => line.takeWhile fun point => !isLineEnd point

theorem isSurrogate_eq_false_of_isSpace {point : CodePoint} (space : isSpace point = true) :
    isSurrogate point = false := by
  unfold isSpace at space
  unfold isSurrogate
  simp only [Bool.or_eq_true, Bool.and_eq_true, decide_eq_true_eq] at space
  rw [Bool.and_eq_false_iff, decide_eq_false_iff_not, decide_eq_false_iff_not]
  omega

theorem encodable_dropWhile {text : PyText} :
    encodable (text.dropWhile isSpace) = encodable text := by
  induction text with
  | nil => rfl
  | cons point rest ih =>
      rw [List.dropWhile_cons]
      by_cases space : isSpace point = true
      · rw [if_pos space, ih]
        unfold encodable
        rw [List.all_cons, isSurrogate_eq_false_of_isSpace space]
        rfl
      · rw [if_neg space]

@[simp] theorem encodable_reverse {text : PyText} : encodable text.reverse = encodable text :=
  List.all_reverse

@[simp] theorem encodable_append {first second : PyText} :
    encodable (first ++ second) = (encodable first && encodable second) :=
  List.all_append

/-- A string has no surrogate. -/
@[simp] theorem encodable_ofString (text : String) : encodable (ofString text) = true := by
  refine List.all_eq_true.mpr fun point among => ?_
  obtain ⟨letter, -, rfl⟩ := List.mem_map.mp among
  have valid : letter.toNat < 0xD800 ∨ 0xDFFF < letter.toNat ∧ letter.toNat < 0x110000 :=
    letter.valid
  have plain : isSurrogate (ofChar letter) = false := by
    rw [isSurrogate, Bool.and_eq_false_iff, decide_eq_false_iff_not, decide_eq_false_iff_not]
    dsimp only [ofChar]
    omega
  rw [plain]
  rfl

theorem encodable_intercalate {separator : PyText} (plain : encodable separator = true)
    (texts : List PyText) : encodable (separator.intercalate texts) = texts.all encodable := by
  induction texts with
  | nil => rfl
  | cons first rest ih =>
      cases rest with
      | nil => rw [List.intercalate_singleton, List.all_cons, List.all_nil, Bool.and_true]
      | cons second rest =>
          rw [List.intercalate_cons_cons, encodable_append, encodable_append, plain, ih,
            Bool.and_true]
          rfl

/-- Stripping keeps or loses no surrogate. -/
@[simp] theorem encodable_strip (text : PyText) : encodable (strip text) = encodable text := by
  rw [strip, encodable_reverse, encodable_dropWhile, encodable_reverse, encodable_dropWhile]

/-- A text without carriage returns is read as it is. -/
theorem universalNewlines_eq {text : PyText} (plain : ∀ point ∈ text, point.val ≠ 13) :
    universalNewlines text = text := by
  unfold universalNewlines
  induction text with
  | nil => rfl
  | cons point rest ih =>
      rw [newlinesFrom, if_neg (plain point List.mem_cons_self), Bool.false_and, if_neg nofun,
        ih fun other among => plain other (List.mem_cons_of_mem _ among)]

end PyText

end Orchestrator.Foundation
