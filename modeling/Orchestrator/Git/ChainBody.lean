import Mathlib.Data.List.DropRight
import Mathlib.Data.List.Forall2
import Orchestrator.Foundation.MarkedText
import Orchestrator.Foundation.PyText

/-! # The body of a reused pull request

The body is the one of the task that opened the pull request, and a marked section for each task
that was published onto it later. A body that is too long keeps the mark and the title of its
oldest sections, and not their prose.
-/

namespace Orchestrator.Git

open Orchestrator.Foundation PyText MarkedText

/-! ## Text operations -/

def newline : CodePoint := 10

/-- `text.rstrip()`. -/
def rstrip (text : PyText) : PyText := text.rdropWhile isSpace

/-- `text.partition(separator)`: what is before the first separator, whether there is one, and what
is after it. -/
def partitionAt (separator : PyText) : PyText → PyText × Bool × PyText
  | [] => ([], false, [])
  | first :: rest =>
      if separator.isPrefixOf (first :: rest) then
        ([], true, (first :: rest).drop separator.length)
      else
        let parts := partitionAt separator rest
        (first :: parts.1, parts.2)

def removeprefix (start text : PyText) : PyText :=
  if start.isPrefixOf text then text.drop start.length else text

theorem removeprefix_append (start text : PyText) : removeprefix start (start ++ text) = text := by
  have here : start.isPrefixOf (start ++ text) = true :=
    List.isPrefixOf_iff_prefix.mpr (List.prefix_append start text)
  rw [ removeprefix, if_pos here, List.drop_left]

def removesuffix (tail text : PyText) : PyText :=
  if tail.isSuffixOf text then text.take (text.length - tail.length) else text

/-! ## The body -/

/-- `_TASK_MARKER_PREFIX`. -/
def taskMarkerPrefix : PyText := ofString "<!-- worc-task:"

/-- `_SECTION_SEPARATOR`. -/
def sectionSeparator : PyText := ofString "\n\n---\n\n"

/-- `_SUMMARY_POINTER_PREFIX`. -/
def summaryPointerPrefix : PyText := ofString "<!-- worc-summary:"

/-- `_FOLLOW_UPS_HEADING`. -/
def followUpsHeading : PyText := ofString "## Technical debt / follow-ups"

/-- `_PR_BODY_MAX_CHARS`. -/
def prBodyMaxChars : Nat := 60000

def blankLine : PyText := ofString "\n\n"

/-- What follows the mark of a task's section on its line. -/
def taskTag (taskId : PyText) : PyText := taskId ++ ofString " -->"

def taskMarker (taskId : PyText) : PyText := taskMarkerPrefix ++ taskTag taskId

/-- The task that a marker block names. -/
def markedTask (markerBlock : PyText) : PyText :=
  removesuffix (ofString "-->")
    ( removeprefix taskMarkerPrefix (partitionAt (ofString "\n") markerBlock).1)

/-- The committed summary that a marker block points at, if any. -/
def summaryPointer (markerBlock : PyText) : PyText :=
  match (splitLines markerBlock).find? fun line => startsWith line summaryPointerPrefix with
  | some line => strip (removesuffix (ofString "-->") ( removeprefix summaryPointerPrefix line))
  | none => []

/-- The follow-ups of a summary, from their heading. -/
def followUpsOf (summary : PyText) : PyText :=
  let parts := partitionAt followUpsHeading summary
  if parts.2.1 then ofString "\n" ++ followUpsHeading ++ rstrip parts.2.2 ++ ofString "\n" else []

/-- Where the text of an elided summary is found. -/
def summaryPlace (markerBlock : PyText) : PyText :=
  let committed := summaryPointer markerBlock
  if committed = [] then
    ofString "the full text stays on the run host at \x60.worc/logs/" ++
      (strip (markedTask markerBlock) ++ ofString "/summary.md\x60 (not in the repository)")
  else ofString "the full text is committed in this PR at \x60" ++ (committed ++ ofString "\x60")

/-- The note in the place of an elided summary. -/
def elisionStub (markerBlock followUps : PyText) : PyText :=
  let what := if followUps = [] then "_Summary" else "_Summary prose"
  let kept := if followUps = [] then " " else " the follow-ups below are complete; "
  ofString (what ++ " elided to keep the PR body under GitHub's limit;" ++ kept) ++
    (summaryPlace markerBlock ++ ofString "._")

/-- `_compact_pr_section`. -/
def compactPrSection (keepFollowUps : Bool) (text : PyText) : PyText :=
  let block := partitionAt blankLine text
  let titled := partitionAt blankLine block.2.2
  let followUps := if keepFollowUps then followUpsOf titled.2.2 else []
  block.1 ++ (blankLine ++ (titled.1 ++ (blankLine ++
    (elisionStub block.1 followUps ++ (ofString "\n" ++ followUps)))))

/-- One pass over the sections, oldest first, until the body is short enough. -/
def compactPass (keepFollowUps : Bool) : Int → List PyText → Int × List PyText
  | total, [] => (total, [])
  | total, text :: texts =>
      if total ≤ prBodyMaxChars then (total, text :: texts)
      else
        let compacted := compactPrSection keepFollowUps text
        let rest := compactPass keepFollowUps (total - (text.length - compacted.length)) texts
        (rest.1, compacted :: rest.2)

/-- The sections with their marks, after a head. -/
def joinSections (head : PyText) (texts : List PyText) : PyText :=
  head ++ texts.flatMap (sectionSeparator ++ ·)

/-- `_bound_pr_body`. -/
def boundPrBody (body : PyText) : PyText :=
  if body.length ≤ prBodyMaxChars then body
  else
    match splitBefore sectionSeparator taskMarkerPrefix body with
    | head :: text :: texts =>
        let pass := compactPass true (joinSections head (text :: texts)).length (text :: texts)
        joinSections head (compactPass false pass.1 pass.2).2
    | _ => body

end Orchestrator.Git
