import Orchestrator.Foundation.Lines
import Orchestrator.Foundation.Utf8Replace
import Orchestrator.Git.ChainBody
import Orchestrator.Git.DiffOverview

/-! # Printing a diff

How git prints the changes of a diff: the header of each file, with paths quoted where they have
to be, and the lines of its hunks.
-/

/-! ## Reading a diff

One entry for each file of a unified diff. The lines of a block are its header up to the first hunk,
and its content after that.
-/

namespace Orchestrator.Git

open Orchestrator.Foundation
open Orchestrator.Foundation.PyText (ofString textLines startsWith endsWith utf8Bytes
  decodeReplacing)

/-! ## Quoted paths -/

def isOctal (point : CodePoint) : Bool := 48 ≤ point.val && point.val < 56

/-- The byte of three octal digits. -/
def octalByte (first second third : CodePoint) : UInt8 :=
  .ofNat (64 * (first.val - 48) + 8 * (second.val - 48) + (third.val - 48))

/-- `_C_ESCAPES.get(letter, letter)`. -/
def cUnescaped (letter : CodePoint) : CodePoint :=
  ((cEscapes.find? fun escape => escape.1 = letter).map Prod.snd).getD letter

/-- The bytes that a quoted body stands for. -/
def unquoteBytes : PyText → List UInt8
  | [] => []
  | [point] => utf8Bytes point
  | point :: first :: rest =>
      if point ≠ 92 then utf8Bytes point ++ unquoteBytes (first :: rest)
      else
        match rest with
        | second :: third :: after =>
            if isOctal first && isOctal second && isOctal third then
              octalByte first second third :: unquoteBytes after
            else utf8Bytes (cUnescaped first) ++ unquoteBytes (second :: third :: after)
        | after => utf8Bytes (cUnescaped first) ++ unquoteBytes after

/-- `_unquote`. -/
def unquote (text : PyText) : PyText :=
  if text.length < 2 ∨ ¬ (startsWith text [34] && endsWith text [34]) then text
  else decodeReplacing (unquoteBytes (text.drop 1).dropLast)

/-- What is before the first quote that is not escaped, and what is after it. -/
def untilQuote : PyText → Option (PyText × PyText)
  | [] => none
  | [point] => if point = 34 then some ([], []) else none
  | point :: next :: rest =>
      if point = 92 then
        (untilQuote rest).map fun parts => (point :: next :: parts.1, parts.2)
      else if point = 34 then some ([], next :: rest)
      else (untilQuote (next :: rest)).map fun parts => (point :: parts.1, parts.2)

/-- `_take_quoted`, of a text that a quote starts. -/
def takeQuoted (text : PyText) : Option (PyText × PyText) :=
  (untilQuote (text.drop 1)).map fun parts => (unquote (34 :: parts.1 ++ [34]), parts.2)

def sideA : PyText := ofString "a/"

def sideB : PyText := ofString "b/"

def devNull : PyText := ofString "/dev/null"

/-- `_side_path`. -/
def sidePath (text side : PyText) : Option PyText :=
  let text := removesuffix [9] text
  if text = devNull then none else some ( removeprefix side (unquote text))

/-- The one of two texts that is not empty. -/
def orElseText (first second : PyText) : PyText := if first.isEmpty then second else first

/-- `_path_from_git_line`. -/
def pathFromGitLine (rest : PyText) : Option PyText :=
  if startsWith rest [34] then
    (takeQuoted rest).map fun parts =>
      orElseText ( removeprefix sideB (unquote ( removeprefix [32] parts.2)))
        ( removeprefix sideA parts.1)
  else
    let half := (rest.length - 1) / 2
    let left := rest.take half
    let right := rest.drop (half + 1)
    if (rest.drop half).take 1 = [32] ∧ removeprefix sideA left = removeprefix sideB right then
      some ( removeprefix sideB right)
    else none

/-! ## Blocks -/

/-- The facts that a block has declared so far. -/
structure DiffBlock where
  gitLine : PyText
  kind : EntryKind := .M
  oldPath : Option PyText := none
  newPath : Option PyText := none
  renameFrom : Option PyText := none
  renameTo : Option PyText := none
  added : Nat := 0
  removed : Nat := 0

/-- `read_header_line`: whether the block is still in its header, and what it has declared. -/
def DiffBlock.readHeaderLine (block : DiffBlock) (line : PyText) : Bool × DiffBlock :=
  if startsWith line (ofString "@@") then (false, block)
  else if startsWith line (ofString "new file mode") then (true, { block with kind := .A })
  else if startsWith line (ofString "deleted file mode") then (true, { block with kind := .D })
  else if startsWith line (ofString "rename from ") then
    (true, { block with renameFrom := some (unquote (line.drop 12)) })
  else if startsWith line (ofString "rename to ") then
    (true, { block with renameTo := some (unquote (line.drop 10)) })
  else if startsWith line (ofString "--- ") then
    (true, { block with oldPath := sidePath (line.drop 4) sideA })
  else if startsWith line (ofString "+++ ") then
    (true, { block with newPath := sidePath (line.drop 4) sideB })
  else (true, block)

/-- A path that is there and not empty. -/
def filled (path : Option PyText) : Option PyText := path.filter fun text => !text.isEmpty

/-- `entry`. -/
def DiffBlock.entry (block : DiffBlock) : Option DiffEntry :=
  match block.renameFrom, block.renameTo with
  | some source, some target =>
      some { path := target, kind := .R, added := block.added, removed := block.removed,
             previousPath := some source }
  | _, _ =>
      let path := (filled (if block.kind = .D then block.oldPath else block.newPath)).or
        ((filled block.newPath).or ((filled block.oldPath).or (pathFromGitLine block.gitLine)))
      path.map fun path =>
        { path := path, kind := block.kind, added := block.added, removed := block.removed }

/-! ## The diff -/

def gitHeader : PyText := ofString "diff --git "

/-- Where the reading of a diff stands. -/
structure DiffReading where
  entries : List DiffEntry := []
  block : Option DiffBlock := none
  inHeader : Bool := false

/-- The entries with that of the open block, `_close`. -/
def DiffReading.close (reading : DiffReading) : List DiffEntry :=
  reading.entries ++ (reading.block.bind DiffBlock.entry).toList

/-- One line of a diff. -/
def DiffReading.readLine (reading : DiffReading) (line : PyText) : DiffReading :=
  if startsWith line gitHeader then
    { entries := reading.close
      block := some { gitLine := line.drop gitHeader.length }
      inHeader := true }
  else
    match reading.block with
    | none => reading
    | some block =>
        if reading.inHeader then
          { reading with
            block := some (block.readHeaderLine line).2
            inHeader := (block.readHeaderLine line).1 }
        else if startsWith line [43] then
          { reading with block := some { block with added := block.added + 1 } }
        else if startsWith line [45] then
          { reading with block := some { block with removed := block.removed + 1 } }
        else reading

/-- `parse_diff`, line by line as text mode reads them. -/
def parseDiff (text : PyText) : List DiffEntry :=
  ((textLines text).foldl DiffReading.readLine {}).close

open Orchestrator.Foundation
open Orchestrator.Foundation.PyText (ofString utf8Bytes decodeReplacing asciiPoint)

/-! ## Paths -/

/-- The name of a file in a repository. -/
structure GitPath where
  bytes : List UInt8
  filled : bytes ≠ []

/-- The path as text. -/
def GitPath.text (path : GitPath) : PyText := decodeReplacing path.bytes

/-- A byte that a path is quoted for. -/
def quotesByte (byte : UInt8) : Bool :=
  byte.toNat < 32 || 127 ≤ byte.toNat || byte = 34 || byte = 92

/-- A byte of a quoted path. -/
def quotedByte (byte : UInt8) : PyText :=
  (cQuoted (asciiPoint byte)).getD
    (if quotesByte byte then octalEscape byte.toNat else [asciiPoint byte])

/-- A character that a path is quoted for, where those beyond ASCII are not. -/
def quotesPoint (point : CodePoint) : Bool := isControl point || point = 34 || point = 92

/-- A path after its side, as a header shows it. With `core.quotePath` bytes beyond ASCII are
escaped, and without it they are printed as they are. -/
def shownPath (quotePath : Bool) (side : PyText) (path : GitPath) : PyText :=
  if quotePath then
    if path.bytes.any quotesByte then 34 :: side ++ path.bytes.flatMap quotedByte ++ [34]
    else side ++ path.bytes.map asciiPoint
  else if path.text.any quotesPoint then 34 :: side ++ path.text.flatMap quotedPoint ++ [34]
  else side ++ path.text

/-! ## Changes -/

/-- A text on one line. -/
structure LineText where
  text : PyText
  oneLine : 10 ∉ text

/-- A line of a hunk. -/
inductive HunkLine where
  | context (content : LineText)
  | added (content : LineText)
  | removed (content : LineText)
  | noNewline

def HunkLine.text : HunkLine → PyText
  | .context content => 32 :: content.text
  | .added content => 43 :: content.text
  | .removed content => 45 :: content.text
  | .noNewline => ofString "\\ No newline at end of file"

/-- A hunk: its place, with what is shown after it, and its lines. -/
structure Hunk where
  place : LineText
  lines : List HunkLine

def Hunk.text (hunk : Hunk) : List PyText :=
  (ofString "@@ " ++ hunk.place.text) :: hunk.lines.map HunkLine.text

/-- The content of a change: nothing, bytes, or hunks. -/
inductive ChangeBody where
  | none
  | binary
  | hunks (first : Hunk) (others : List Hunk)

def ChangeBody.hunkList : ChangeBody → List Hunk
  | .none => []
  | .binary => []
  | .hunks first others => first :: others

/-- How a file changed, with the modes that are shown. -/
inductive ChangeKind where
  | added (mode : Nat)
  | deleted (mode : Nat)
  | modified (modes : Option (Nat × Nat))
  | renamed (source : GitPath) (similarity : Nat) (modes : Option (Nat × Nat))

/-- The names of the two blobs, and the mode where both have the same. -/
structure Blobs where
  old : List (Fin 16)
  new : List (Fin 16)
  mode : Option Nat

/-- The change of one file. The blobs are named where the content changed. -/
structure FileChange where
  path : GitPath
  kind : ChangeKind
  blobs : Option Blobs
  body : ChangeBody

def FileChange.source (change : FileChange) : GitPath :=
  match change.kind with
  | .renamed source _ _ => source
  | _ => change.path

/-! ## Lines -/

/-- The lines of a change of modes. -/
def modeLines : Option (Nat × Nat) → List PyText
  | none => []
  | some (old, new) => [ofString "old mode " ++ Json.naturalLiteral old,
      ofString "new mode " ++ Json.naturalLiteral new]

/-- The extended header of a kind. -/
def kindLines (quotePath : Bool) (path : GitPath) : ChangeKind → List PyText
  | .added mode => [ofString "new file mode " ++ Json.naturalLiteral mode]
  | .deleted mode => [ofString "deleted file mode " ++ Json.naturalLiteral mode]
  | .modified modes => modeLines modes
  | .renamed source similarity modes => modeLines modes ++
      [ofString "similarity index " ++ Json.naturalLiteral similarity ++ ofString "%",
        ofString "rename from " ++ shownPath quotePath [] source,
        ofString "rename to " ++ shownPath quotePath [] path]

def hexDigits (digits : List (Fin 16)) : PyText :=
  digits.map fun digit => PyText.ofChar (Nat.digitChar digit.val)

/-- The line of the blobs. -/
def blobLines : Option Blobs → List PyText
  | none => []
  | some blobs => [ofString "index " ++ (hexDigits blobs.old ++ ofString ".." ++
      hexDigits blobs.new ++
      match blobs.mode with
      | some mode => ofString " " ++ Json.naturalLiteral mode
      | none => [])]

/-- The old side of a change. -/
def oldSide (quotePath : Bool) (change : FileChange) : PyText :=
  match change.kind with
  | .added _ => devNull
  | _ => shownPath quotePath sideA change.source

/-- The new side of a change. -/
def newSide (quotePath : Bool) (change : FileChange) : PyText :=
  match change.kind with
  | .deleted _ => devNull
  | _ => shownPath quotePath sideB change.path

/-- A side with a tab after it where it has a space. -/
def withTab (side : PyText) : PyText := side ++ if 32 ∈ side then [9] else []

/-- The lines of the content. -/
def bodyLines (quotePath : Bool) (change : FileChange) : List PyText :=
  match change.body with
  | .none => []
  | .binary => [ofString "Binary files " ++ oldSide quotePath change ++ ofString " and " ++
      newSide quotePath change ++ ofString " differ"]
  | .hunks first others =>
      (ofString "--- " ++ withTab (oldSide quotePath change)) ::
        (ofString "+++ " ++ withTab (newSide quotePath change)) ::
          (first :: others).flatMap Hunk.text

/-- The lines of a change. -/
def changeLines (quotePath : Bool) (change : FileChange) : List PyText :=
  (gitHeader ++ shownPath quotePath sideA change.source ++ [32] ++
      shownPath quotePath sideB change.path) ::
    kindLines quotePath change.path change.kind ++ blobLines change.blobs ++
      bodyLines quotePath change

/-- `git diff`. -/
def printDiff (quotePath : Bool) (changes : List FileChange) : PyText :=
  (changes.flatMap (changeLines quotePath)).flatMap fun line => line ++ [10]

/-! ## Entries -/

def ChangeKind.entryKind : ChangeKind → EntryKind
  | .added _ => .A
  | .deleted _ => .D
  | .modified _ => .M
  | .renamed _ _ _ => .R

def HunkLine.isAdded : HunkLine → Bool
  | .added _ => true
  | _ => false

def HunkLine.isRemoved : HunkLine → Bool
  | .removed _ => true
  | _ => false

def FileChange.lines (change : FileChange) : List HunkLine :=
  change.body.hunkList.flatMap Hunk.lines

/-- What a change is: its path, its kind, and how many lines it adds and removes. -/
def FileChange.entry (change : FileChange) : DiffEntry where
  path := change.path.text
  kind := change.kind.entryKind
  added := change.lines.countP HunkLine.isAdded
  removed := change.lines.countP HunkLine.isRemoved
  previousPath := match change.kind with
    | .renamed source _ _ => some source.text
    | _ => none

end Orchestrator.Git
