import Orchestrator.Foundation.Json
import Orchestrator.Foundation.Regex
import Orchestrator.TaskFile.Model

/-! # Reading a task file

A `.json` file is one object, its body under a reserved key; any other file has a fenced YAML
block before its body. A key that is there twice is refused in both.
-/

namespace Orchestrator.TaskFile

open Orchestrator.Foundation
open Orchestrator.Foundation.PyText (ofString ofChar strip lower isSpace)

/-- What the YAML loader comes to: it may raise errors of its own, or any other. -/
inductive YamlResult where
  | loaded (value : Value)
  | yamlError (message : PyText)
  | raised

/-- The texts of Python's own errors and formats. -/
structure Wording where
  decodeError : List UInt8 → PyText
  jsonError : PyText → PyText
  repr : Value → PyText
  controlRatio : Nat → Nat → PyText

/-- The result of splitting front matter from body. -/
inductive FrontmatterParse where
  | missing
  | malformed (detail : PyText)
  | split (frontmatter : Frontmatter) (body : PyText)

mutual

/-- The value of a document: none when an object has a key twice. -/
def valueOf : Json → Option Value
  | .null => some .none
  | .bool value => some (.bool value)
  | .number literal => some (.other literal)
  | .string letters => some (.text letters)
  | .array items => (valuesOf items).map .list
  | .object members => (entriesOf [] members).map .mapping

def valuesOf : List Json → Option (List Value)
  | [] => some []
  | item :: items => do
      let value ← valueOf item
      let values ← valuesOf items
      return value :: values

/-- `_json_no_duplicates`, after the keys seen. -/
def entriesOf (seen : List PyText) : List (PyText × Json) → Option (List (Key × Value))
  | [] => some []
  | (key, item) :: members => do
      let value ← valueOf item
      let entries ← entriesOf (key :: seen) members
      if key ∈ seen then none else some ((.text key, value) :: entries)

end

/-- `{str(key): value}`. -/
def frontmatterOf (entries : List (Key × Value)) : Frontmatter :=
  OrderedDict.ofItems (entries.map fun entry => (entry.1.printed, entry.2))

/-- `JSON_BODY_KEY`. -/
def jsonBodyKey : String := "description"

/-- `_split_json`. -/
def splitJson (wording : Wording) (text : PyText) : FrontmatterParse :=
  match (Json.loads text).bind valueOf with
  | none => .malformed (ofString "JSON error: " ++ wording.jsonError text)
  | some (.mapping entries) =>
      let body := (Value.entry jsonBodyKey entries).text?.getD []
      .split (frontmatterOf (entries.filter fun entry => entry.1 ≠ .text (ofString jsonBodyKey)))
        body
  | some _ => .missing

/-- A line is a fence. -/
def isFence (line : PyText) : Bool := strip line = ofString "---"

/-- `_split_md`: none when the loader raises what is no error of YAML. -/
def splitMd (yaml : PyText → YamlResult) (text : PyText) : Option FrontmatterParse :=
  match PyText.splitKeepEnds text with
  | [] => some .missing
  | first :: rest =>
      if isFence first then
        match rest.dropWhile fun line => !isFence line with
        | [] => some (.malformed (ofString "front matter has no closing '---' fence"))
        | _ :: after =>
            match yaml (rest.takeWhile fun line => !isFence line).flatten with
            | .raised => none
            | .yamlError message =>
                some (.malformed (ofString "front matter YAML error: " ++ message))
            | .loaded .none => some (.split OrderedDict.empty after.flatten)
            | .loaded (.mapping entries) => some (.split (frontmatterOf entries) after.flatten)
            | .loaded _ => some (.malformed (ofString "front matter is not a mapping"))
      else some .missing

/-- `split_frontmatter`. -/
def splitFrontmatter (yaml : PyText → YamlResult) (wording : Wording) (suffix : String)
    (text : PyText) : Option FrontmatterParse :=
  if suffix = ".json" then some (splitJson wording text) else splitMd yaml text

/-! ## Sections -/

/-- `_SECTION_RE`: a heading of any level, alone on its line. -/
def sectionRe : Regex CodePoint :=
  let hash := Regex.one fun point => point = ofChar '#'
  let space := Regex.one isSpace
  .sequence
    [.look fun before _ => before.head?.all fun point => point.val = 10,
      hash, .upTo hash 5, .plus true space,
      .group 1 (.plus false (.one fun point => point.val ≠ 10)),
      .star true space, .look fun _ rest => rest.head?.all fun point => point.val = 10]

/-- The characters up to the next heading. -/
def upToHeading : List (Regex.Piece CodePoint) → PyText
  | .plain point :: rest => point :: upToHeading rest
  | _ => []

/-- The text of the first section with a heading. -/
def sectionOf (target : PyText) : List (Regex.Piece CodePoint) → Option PyText
  | [] => none
  | .plain _ :: rest => sectionOf target rest
  | .found _ stop :: rest =>
      if lower (strip ((stop.group? 1).getD [])) = target then some (strip (upToHeading rest))
      else sectionOf target rest

/-- `extract_section`. -/
def extractSection (body : PyText) (header : String) : Option PyText :=
  sectionOf (lower (strip (ofString header))) (sectionRe.pieces body)

end Orchestrator.TaskFile
