import Mathlib.Data.List.Nodup
import Orchestrator.Foundation.PyText

/-! # JSON documents

Writing a document with an indent of two and reading one back, as the `json` module does.
A text may hold lone surrogates: they are written as they are, or escaped when the output
is kept within ASCII. What is written is read back as the same document.
-/

namespace Orchestrator.Foundation

open PyText

/-- A JSON document; a number is kept as it is written. -/
inductive Json where
  | null
  | bool (value : Bool)
  | number (literal : PyText)
  | string (value : PyText)
  | array (items : List Json)
  | object (members : List (PyText × Json))

namespace Json

/-! ## Writing -/

/-- The letters of the two-letter escapes, after the character each stands for. -/
def shortEscapes : List (CodePoint × CodePoint) :=
  [(ofChar '"', ofChar '"'), (ofChar '\\', ofChar '\\'), (10, ofChar 'n'), (13, ofChar 'r'),
    (9, ofChar 't'), (8, ofChar 'b'), (12, ofChar 'f')]

def hexDigit (number : Nat) : CodePoint := ofChar (Nat.digitChar number)

/-- `\uXXXX`. -/
def unicodeEscape (number : Nat) : PyText :=
  [ofChar '\\', ofChar 'u', hexDigit (number / 4096), hexDigit (number / 256 % 16),
    hexDigit (number / 16 % 16), hexDigit (number % 16)]

/-- The surrogates that stand for a code point beyond the basic plane. -/
def highSurrogate (number : Nat) : Nat := 0xD800 + (number - 0x10000) / 1024

def lowSurrogate (number : Nat) : Nat := 0xDC00 + (number - 0x10000) % 1024

/-- A character within a quoted text. -/
def escapePoint (ascii : Bool) (point : CodePoint) : PyText :=
  match shortEscapes.find? fun escape => escape.1 = point with
  | some escape => [ofChar '\\', escape.2]
  | none =>
      if point.val < 0x20 || (ascii && 0x7E < point.val) then
        if point.val < 0x10000 then unicodeEscape point.val
        else unicodeEscape (highSurrogate point.val) ++ unicodeEscape (lowSurrogate point.val)
      else [point]

def dumpText (ascii : Bool) (text : PyText) : PyText :=
  ofChar '"' :: text.flatMap (escapePoint ascii) ++ [ofChar '"']

/-- The start of a line at a level. -/
def newline (level : Nat) : PyText := 10 :: List.replicate (2 * level) (ofChar ' ')

mutual

/-- A document within a level. -/
def dump (ascii : Bool) (level : Nat) : Json → PyText
  | null => ofString "null"
  | bool true => ofString "true"
  | bool false => ofString "false"
  | number literal => literal
  | string value => dumpText ascii value
  | array [] => [ofChar '[', ofChar ']']
  | array (item :: items) =>
      ofChar '[' :: (newline (level + 1) ++ (dump ascii (level + 1) item ++
        dumpItems ascii level items))
  | object [] => [ofChar '\x7b', ofChar '\x7d']
  | object ((key, value) :: members) =>
      ofChar '\x7b' :: (newline (level + 1) ++ (dumpText ascii key ++
        (ofChar ':' :: ofChar ' ' :: (dump ascii (level + 1) value ++
          dumpMembers ascii level members))))

/-- The items after the first, and the end of the array. -/
def dumpItems (ascii : Bool) (level : Nat) : List Json → PyText
  | [] => newline level ++ [ofChar ']']
  | item :: items =>
      ofChar ',' :: (newline (level + 1) ++ (dump ascii (level + 1) item ++
        dumpItems ascii level items))

/-- The members after the first, and the end of the object. -/
def dumpMembers (ascii : Bool) (level : Nat) : List (PyText × Json) → PyText
  | [] => newline level ++ [ofChar '\x7d']
  | (key, value) :: members =>
      ofChar ',' :: (newline (level + 1) ++ (dumpText ascii key ++
        (ofChar ':' :: ofChar ' ' :: (dump ascii (level + 1) value ++
          dumpMembers ascii level members))))

end

/-- `json.dumps(document, indent=2, ensure_ascii=ascii)`. -/
def dumps (ascii : Bool) (document : Json) : PyText := dump ascii 0 document

/-- The document of a natural number. -/
def naturalLiteral (number : Nat) : PyText := (Nat.toDigits 10 number).map ofChar

/-- `document.get(key)` of an object: the last member of a key counts. -/
def get? (key : String) : Json → Option Json
  | object members =>
      (members.reverse.find? fun member => member.1 = ofString key).map Prod.snd
  | _ => none

/-- Of distinct keys, each has its own value. -/
theorem get?_of_mem {members : List (PyText × Json)} (distinct : (members.map Prod.fst).Nodup)
    {key : String} {value : Json} (among : (ofString key, value) ∈ members) :
    (object members).get? key = some value := by
  rw [get?]
  cases found : members.reverse.find? fun member => member.1 = ofString key with
  | none =>
      have other := List.find?_eq_none.mp found _ (List.mem_reverse.mpr among)
      exact absurd (decide_eq_true rfl) other
  | some member =>
      have passes := List.find?_some found
      have listed := List.mem_reverse.mp (List.mem_of_find?_eq_some found)
      rw [List.inj_on_of_nodup_map distinct listed among (of_decide_eq_true passes)]
      rfl

/-- What is under a key is a member. -/
theorem mem_of_get? {members : List (PyText × Json)} {key : String} {value : Json}
    (found : (object members).get? key = some value) : (ofString key, value) ∈ members := by
  rw [get?, Option.map_eq_some_iff] at found
  obtain ⟨⟨other, document⟩, first, rfl⟩ := found
  have named := List.find?_some first
  rw [decide_eq_true_eq] at named
  exact named ▸ List.mem_reverse.mp (List.mem_of_find?_eq_some first)

/-! ## Reading -/

def isWhitespace (point : CodePoint) : Bool :=
  point.val = 32 || point.val = 9 || point.val = 10 || point.val = 13

def skipSpace (text : PyText) : PyText := text.dropWhile isWhitespace

def isDigit (point : CodePoint) : Bool := 48 ≤ point.val && point.val ≤ 57

/-- The value of a hexadecimal digit, in either case. -/
def hexValue (point : CodePoint) : Option Nat :=
  if isDigit point then some (point.val - 48)
  else if 97 ≤ point.val ∧ point.val ≤ 102 then some (point.val - 87)
  else if 65 ≤ point.val ∧ point.val ≤ 70 then some (point.val - 55)
  else none

/-- The code point of four hexadecimal digits. -/
def hexPoint (first second third fourth : CodePoint) : Option CodePoint := do
  pointOf (4096 * (← hexValue first) + 256 * (← hexValue second) + 16 * (← hexValue third) +
    (← hexValue fourth))

/-- The character of a two-letter escape. -/
def unescape (letter : CodePoint) : Option CodePoint :=
  if letter = ofChar '/' then some letter
  else (shortEscapes.find? fun escape => escape.2 = letter).map Prod.fst

/-- The characters up to the closing quote, each with whether it was written as `\uXXXX`. -/
def lexText : PyText → Option (List (Bool × CodePoint) × PyText)
  | [] => none
  | point :: rest =>
      if point = ofChar '"' then some ([], rest)
      else if point = ofChar '\\' then
        match rest with
        | [] => none
        | letter :: rest =>
            if letter = ofChar 'u' then
              match rest with
              | first :: second :: third :: fourth :: rest => do
                  let code ← hexPoint first second third fourth
                  let (units, rest) ← lexText rest
                  return ((true, code) :: units, rest)
              | _ => none
            else do
              let plain ← unescape letter
              let (units, rest) ← lexText rest
              return ((false, plain) :: units, rest)
      else if point.val < 0x20 then none
      else do
        let (units, rest) ← lexText rest
        return ((false, point) :: units, rest)

def isHigh (point : CodePoint) : Bool := 0xD800 ≤ point.val && point.val < 0xDC00

def isLow (point : CodePoint) : Bool := 0xDC00 ≤ point.val && point.val < 0xE000

/-- The code point that two surrogates stand for. -/
def joined (high low : CodePoint) : PyText :=
  (pointOf (0x10000 + (1024 * (high.val - 0xD800) + (low.val - 0xDC00)))).toList

/-- Join the escaped surrogates that follow each other, after a high one or not. -/
def joinFrom : Option CodePoint → List (Bool × CodePoint) → PyText
  | pending, [] => pending.toList
  | none, (escaped, point) :: rest =>
      if escaped && isHigh point then joinFrom (some point) rest else point :: joinFrom none rest
  | some high, (escaped, point) :: rest =>
      if escaped && isLow point then joined high point ++ joinFrom none rest
      else if escaped && isHigh point then high :: joinFrom (some point) rest
      else high :: point :: joinFrom none rest

/-- A text after its opening quote. -/
def parseText (text : PyText) : Option (PyText × PyText) :=
  (lexText text).map fun (units, rest) => (joinFrom none units, rest)

/-- A part of a number: its digits, at least one. -/
def scanDigits (text : PyText) : Option (PyText × PyText) :=
  if text.takeWhile isDigit = [] then none
  else some (text.takeWhile isDigit, text.dropWhile isDigit)

/-- The whole part of a number has no leading zero. -/
def scanWhole (text : PyText) : Option (PyText × PyText) :=
  match text with
  | [] => none
  | point :: rest => if point = ofChar '0' then some ([point], rest) else scanDigits (point :: rest)

/-- A fraction or an exponent, when one is there. -/
def scanOptional (scan : PyText → Option (PyText × PyText)) (text : PyText) : PyText × PyText :=
  (scan text).getD ([], text)

def scanFraction : PyText → Option (PyText × PyText)
  | [] => none
  | point :: rest =>
      if point = ofChar '.' then (scanDigits rest).map fun (digits, rest) => (point :: digits, rest)
      else none

def scanExponent : PyText → Option (PyText × PyText)
  | [] => none
  | point :: rest =>
      if point = ofChar 'e' ∨ point = ofChar 'E' then
        match rest with
        | [] => none
        | sign :: after =>
            if sign = ofChar '+' ∨ sign = ofChar '-' then
              (scanDigits after).map fun (digits, rest) => (point :: sign :: digits, rest)
            else (scanDigits rest).map fun (digits, rest) => (point :: digits, rest)
      else none

/-- A number after its sign. -/
def scanUnsigned (text : PyText) : Option (PyText × PyText) := do
  let (whole, rest) ← scanWhole text
  let (fraction, rest) := scanOptional scanFraction rest
  let (exponent, rest) := scanOptional scanExponent rest
  return (whole ++ fraction ++ exponent, rest)

def scanNumber : PyText → Option (PyText × PyText)
  | [] => none
  | point :: rest =>
      if point = ofChar '-' then
        (scanUnsigned rest).map fun (literal, rest) => (point :: literal, rest)
      else scanUnsigned (point :: rest)

/-- The names that are documents. -/
def names : List (PyText × Json) :=
  [(ofString "null", .null), (ofString "true", .bool true), (ofString "false", .bool false),
    (ofString "NaN", .number (ofString "NaN")),
    (ofString "Infinity", .number (ofString "Infinity")),
    (ofString "-Infinity", .number (ofString "-Infinity"))]

/-- A name or a number. -/
def parseAtom (text : PyText) : Option (Json × PyText) :=
  match names.find? fun name => name.1.isPrefixOf text with
  | some name => some (name.2, text.drop name.1.length)
  | none => (scanNumber text).map fun (literal, rest) => (.number literal, rest)

/-- The key of a member, up to its value. -/
def parseKey : PyText → Option (PyText × PyText)
  | [] => none
  | point :: rest =>
      if point = ofChar '"' then do
        let (key, rest) ← parseText rest
        match skipSpace rest with
        | [] => none
        | colon :: rest => if colon = ofChar ':' then some (key, skipSpace rest) else none
      else none

mutual

/-- A document, nested within a bound, and the text after it. -/
def parseValue : Nat → PyText → Option (Json × PyText)
  | 0, _ => none
  | _, [] => none
  | fuel + 1, point :: rest =>
      if point = ofChar '"' then (parseText rest).map fun (value, rest) => (.string value, rest)
      else if point = ofChar '\x7b' then
        match skipSpace rest with
        | [] => none
        | next :: after =>
            if next = ofChar '\x7d' then some (.object [], after)
            else do
              let (key, rest) ← parseKey (next :: after)
              let (value, rest) ← parseValue fuel rest
              let (members, rest) ← parseMembers fuel rest
              return (.object ((key, value) :: members), rest)
      else if point = ofChar '[' then
        match skipSpace rest with
        | [] => none
        | next :: after =>
            if next = ofChar ']' then some (.array [], after)
            else do
              let (item, rest) ← parseValue fuel (next :: after)
              let (items, rest) ← parseItems fuel rest
              return (.array (item :: items), rest)
      else parseAtom (point :: rest)

/-- The items after the first. -/
def parseItems : Nat → PyText → Option (List Json × PyText)
  | 0, _ => none
  | fuel + 1, text =>
      match skipSpace text with
      | [] => none
      | point :: rest =>
          if point = ofChar ']' then some ([], rest)
          else if point = ofChar ',' then do
            let (item, rest) ← parseValue fuel (skipSpace rest)
            let (items, rest) ← parseItems fuel rest
            return (item :: items, rest)
          else none

/-- The members after the first. -/
def parseMembers : Nat → PyText → Option (List (PyText × Json) × PyText)
  | 0, _ => none
  | fuel + 1, text =>
      match skipSpace text with
      | [] => none
      | point :: rest =>
          if point = ofChar '\x7d' then some ([], rest)
          else if point = ofChar ',' then do
            let (key, rest) ← parseKey (skipSpace rest)
            let (value, rest) ← parseValue fuel rest
            let (members, rest) ← parseMembers fuel rest
            return ((key, value) :: members, rest)
          else none

end

/-- `json.loads(text)`: one document and nothing after it. -/
def loads (text : PyText) : Option Json := do
  let (document, rest) ← parseValue text.length (skipSpace text)
  if skipSpace rest = [] then some document else none

end Json

end Orchestrator.Foundation
