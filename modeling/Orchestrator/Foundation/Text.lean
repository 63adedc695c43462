import Mathlib.Data.List.Infix
import Mathlib.Data.List.Sort
import Mathlib.Data.String.Basic
import Mathlib.Tactic.Common

/-! # Python string operations on their characters -/

namespace Orchestrator.Foundation.Text

/-- `text.startswith(start)`. -/
def startsWith (text start : String) : Bool := start.toList.isPrefixOf text.toList

/-- `text.endswith(tail)`. -/
def endsWith (text tail : String) : Bool := tail.toList.isSuffixOf text.toList

/-- `part in text`. -/
def contains (text part : String) : Bool := decide (part.toList <:+: text.toList)

/-- `text.split(separator)` for a one-character separator. -/
def split (text : String) (separator : Char) : List String :=
  (text.toList.splitOn separator).map String.ofList

/-- `text.partition(separator)` as the part before, whether the separator occurs, and the part
after. -/
def partition (text : String) (separator : Char) : String × Bool × String :=
  let head := text.toList.takeWhile (· != separator)
  match text.toList.drop head.length with
  | [] => (text, false, "")
  | _ :: tail => (String.ofList head, true, String.ofList tail)

/-- `text.replace(old, new)` for one-character strings. -/
def replace (text : String) (old new : Char) : String :=
  String.ofList (text.toList.map fun letter => if letter = old then new else letter)

/-- The characters `str.strip` removes, within ASCII. -/
def isSpace (letter : Char) : Bool :=
  letter = ' ' || (9 ≤ letter.toNat && letter.toNat ≤ 13) ||
    (28 ≤ letter.toNat && letter.toNat ≤ 31)

/-- Drop the leading and trailing characters that satisfy a test. -/
def stripWhere (test : Char → Bool) (text : String) : String :=
  String.ofList (((text.toList.dropWhile test).reverse.dropWhile test).reverse)

/-- `text.strip()`. -/
def strip (text : String) : String := stripWhere isSpace text

/-- `text.upper()`, within ASCII. -/
def upper (text : String) : String := String.ofList (text.toList.map Char.toUpper)

/-- `text.lower()`, within ASCII. -/
def lower (text : String) : String := String.ofList (text.toList.map Char.toLower)

/-- `text.casefold()`, within ASCII. -/
def casefold (text : String) : String := lower text

/-- `sorted(texts)`: strings are ordered by code points in both languages. -/
def sorted (texts : List String) : List String := texts.insertionSort (· ≤ ·)

/-- A two-digit hexadecimal escape. -/
private def hexEscape (letter : Char) : List Char :=
  ['\\', 'x', Nat.digitChar (letter.toNat / 16), Nat.digitChar (letter.toNat % 16)]

private def reprChar (quote letter : Char) : List Char :=
  if letter = '\\' ∨ letter = quote then ['\\', letter]
  else if letter = '\n' then ['\\', 'n']
  else if letter = '\r' then ['\\', 'r']
  else if letter = '\t' then ['\\', 't']
  else if letter.toNat < 32 ∨ letter.toNat = 127 then hexEscape letter
  else [letter]

/-- `repr(text)` for text whose characters outside ASCII are printable: single quotes unless the
text has a single quote and no double quote. -/
def repr (text : String) : String :=
  let quote := if '\'' ∈ text.toList ∧ '"' ∉ text.toList then '"' else '\''
  String.ofList (quote :: text.toList.flatMap (reprChar quote) ++ [quote])

/-- `repr` of an optional string. -/
def reprOption : Option String → String
  | none => "None"
  | some text => repr text

/-- The text of a Python list whose items are already rendered. -/
def bracketed (items : List String) : String := "[" ++ String.intercalate ", " items ++ "]"

/-- `repr(sorted(texts))`. -/
def reprSorted (texts : List String) : String := bracketed ((sorted texts).map repr)

/-- One component of a path being normalized: `..` drops the component before it, except at the
start of a relative path. -/
private def normStep (absolute : Bool) (kept : List String) (part : String) : List String :=
  if part = "" || part = "." then kept
  else if part ≠ ".." then part :: kept
  else
    match kept with
    | [] => if absolute then [] else [".."]
    | top :: rest => if top = ".." then ".." :: kept else rest

/-- `posixpath.normpath(path)`. -/
def normpath (path : String) : String :=
  let slashes := (path.toList.takeWhile (· = '/')).length
  let root := if slashes = 0 then "" else if slashes = 2 then "//" else "/"
  let parts := (split path '/').foldl (normStep (slashes != 0)) []
  let joined := root ++ String.intercalate "/" parts.reverse
  if joined = "" then "." else joined

/-- A list is cut in one way at the first occurrence of a letter. -/
theorem append_cons_inj {β : Type} {letter : β} {left left' right right' : List β}
    (absent : letter ∉ left) (absent' : letter ∉ left') :
    left ++ letter :: right = left' ++ letter :: right' ↔ left = left' ∧ right = right' := by
  constructor
  · intro equal
    induction left generalizing left' with
    | nil =>
        cases left' with
        | nil => exact ⟨rfl, (List.cons.inj equal).2⟩
        | cons head tail =>
            exact absurd (List.mem_cons.mpr (.inl (List.cons.inj equal).1)) absent'
    | cons head tail ih =>
        cases left' with
        | nil => exact absurd (List.mem_cons.mpr (.inl (List.cons.inj equal).1.symm)) absent
        | cons head' tail' =>
            obtain ⟨heads, tails⟩ := List.cons.inj equal
            obtain ⟨rest, same⟩ := ih (fun member => absent (List.mem_cons_of_mem _ member))
              (fun member => absent' (List.mem_cons_of_mem _ member)) tails
            exact ⟨by rw [heads, rest], same⟩
  · rintro ⟨rfl, rfl⟩
    rfl

end Orchestrator.Foundation.Text
