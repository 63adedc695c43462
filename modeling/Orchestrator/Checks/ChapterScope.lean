import Orchestrator.Git.DiffRoundTrip

/-! # The chapters of a change

The chapter checker reads its scope from the lines of a diff that look like the header of a new
side. A quoted path has no such line, a change without hunks has none, and a line of content may
look like one.
-/

namespace Orchestrator.Checks

open Orchestrator.Foundation
open Orchestrator.Foundation.PyText (ofString startsWith endsWith splitLines universalNewlines strip
  isLineEnd)
open Orchestrator.Git (FileChange GitPath ChangeKind ChangeBody changeLines printDiff shownPath
  sideB devNull withTab newSide oldSide kindLines blobLines gitLine)

/-! ## The scope -/

/-- The start of the header of a new side. -/
def newPathMark : PyText := ofString "+++ b/"

/-- The path of a line that matches `_DIFF_NEW_PATH_RE`, when it is a Markdown path. -/
def newPathOf (line : PyText) : Option PyText :=
  if startsWith line newPathMark then
    let path := strip (line.drop newPathMark.length)
    if path ≠ [] ∧ path ≠ devNull ∧ endsWith path (ofString ".md") then some path else none
  else none

/-- `_changed_from_diff`. -/
def changedFromDiff (diffText : PyText) : List PyText :=
  (splitLines diffText).foldl (fun paths line =>
    match newPathOf line with
    | some path => if path ∈ paths then paths else paths ++ [path]
    | none => paths) []

/-- `_resolve_scope`: of the diff file's text, if it is read, and else the paths that the task
names. -/
def resolveScope (diffFile : Option PyText) (named : List PyText) : List PyText :=
  match diffFile with
  | some text =>
      let changed := changedFromDiff (universalNewlines text)
      if changed.isEmpty then named else changed
  | none => named

/-! ## The change -/

/-- A change that takes its file away. -/
def isDeletion (change : FileChange) : Bool :=
  match change.kind with
  | .deleted _ => true
  | _ => false

def isChapterPath (path : PyText) : Bool := endsWith path (ofString ".md")

/-- A chapter that the change adds or modifies. -/
def IsChanged (changes : List FileChange) (path : PyText) : Prop :=
  ∃ change ∈ changes, isDeletion change = false ∧ change.path.text = path ∧
    isChapterPath path = true

/-- The change has hunks. -/
def hasHunks (change : FileChange) : Bool :=
  match change.body with
  | .hunks _ _ => true
  | _ => false

/-- The header of the new side shows the path of a change as it is: there are hunks, the path is not
quoted, and it has neither an end of a line in it nor a blank at an end. -/
def isDisplayed (quotePath : Bool) (change : FileChange) : Bool :=
  !isDeletion change && hasHunks change &&
    shownPath quotePath sideB change.path == sideB ++ change.path.text &&
    change.path.text.all (fun point => !isLineEnd point) &&
      strip change.path.text == change.path.text

/-- The lines of a change but the header of a new side that shows its path as it is. -/
def otherLines (quotePath : Bool) (change : FileChange) : List PyText :=
  if isDisplayed quotePath change then
    gitLine quotePath change :: kindLines quotePath change.path change.kind ++
      blobLines change.blobs ++ [ofString "--- " ++ withTab (oldSide quotePath change)] ++
      change.contentLines
  else changeLines quotePath change

/-- The lines that a printed line is split into. -/
def pieces (line : PyText) : List PyText := splitLines (universalNewlines (line ++ [10]))

/-- A part of another line of the diff looks like the header of a chapter. -/
def Mimicked (quotePath : Bool) (changes : List FileChange) (path : PyText) : Prop :=
  ∃ change ∈ changes, ∃ line ∈ otherLines quotePath change, ∃ piece ∈ pieces line,
    newPathOf piece = some path

/-- A change whose header of the new side shows a chapter's path as it is. -/
def Displayed (quotePath : Bool) (changes : List FileChange) (path : PyText) : Prop :=
  ∃ change ∈ changes, isDisplayed quotePath change = true ∧ change.path.text = path ∧
    isChapterPath path = true

/-! ## Reading the diff -/

variable {quotePath : Bool} {changes : List FileChange} {change : FileChange} {path : PyText}

/-- A scope is the paths of its lines. -/
theorem mem_changedFromDiff (diffText path : PyText) :
    path ∈ changedFromDiff diffText ↔ ∃ line ∈ splitLines diffText, newPathOf line = some path := by
  have run : ∀ lines paths : List PyText, path ∈ lines.foldl (fun paths line =>
      match newPathOf line with
      | some path => if path ∈ paths then paths else paths ++ [path]
      | none => paths) paths ↔ path ∈ paths ∨ ∃ line ∈ lines, newPathOf line = some path := by
    intro lines
    induction lines with
    | nil =>
        intro paths
        exact ⟨.inl, fun found => found.resolve_right fun none => by
          obtain ⟨line, among, -⟩ := none
          cases among⟩
    | cons line lines ih =>
        intro paths
        rw [List.foldl_cons, ih, List.exists_mem_cons_iff, ← or_assoc]
        refine or_congr_left ?_
        cases read : newPathOf line with
        | none => exact ⟨.inl, fun found => found.resolve_right fun wrong => by cases wrong⟩
        | some other =>
            dsimp only
            rw [Option.some_inj]
            split
            · rename_i known
              exact ⟨.inl, fun found => found.elim id fun same => same ▸ known⟩
            · rw [List.mem_append, List.mem_singleton, eq_comm (a := path)]
  rw [changedFromDiff, run, or_iff_right List.not_mem_nil]

/-- The lines of printed lines are their pieces. -/
theorem splitLines_printed (lines : List PyText) :
    splitLines (universalNewlines (lines.flatMap fun line => line ++ [10])) =
      lines.flatMap pieces := by
  induction lines with
  | nil => rfl
  | cons line lines ih =>
      rw [List.flatMap_cons, List.append_assoc, List.singleton_append,
        PyText.splitLines_universalNewlines, ih, List.flatMap_cons]
      rfl

/-- A scope is read from the pieces of the lines of a printed diff. -/
theorem mem_resolveScope (path : PyText) :
    path ∈ resolveScope (some (printDiff quotePath changes)) [] ↔
      ∃ change ∈ changes, ∃ line ∈ changeLines quotePath change, ∃ piece ∈ pieces line,
        newPathOf piece = some path := by
  have same : resolveScope (some (printDiff quotePath changes)) [] =
      changedFromDiff (universalNewlines (printDiff quotePath changes)) := by
    rw [resolveScope]
    split
    · rename_i empty
      exact (List.isEmpty_iff.mp empty).symm
    · rfl
  rw [same, mem_changedFromDiff, printDiff, splitLines_printed]
  constructor
  · rintro ⟨piece, among, read⟩
    obtain ⟨line, listed, inside⟩ := List.mem_flatMap.mp among
    obtain ⟨change, member, printed⟩ := List.mem_flatMap.mp listed
    exact ⟨change, member, line, printed, piece, inside, read⟩
  · rintro ⟨change, member, line, printed, piece, inside, read⟩
    exact ⟨piece, List.mem_flatMap.mpr ⟨line, List.mem_flatMap.mpr ⟨change, member, printed⟩,
      inside⟩, read⟩

/-- A line without an end in it is one piece. -/
theorem pieces_plain {line : PyText} (plain : line.all (fun point => !isLineEnd point) = true) :
    pieces line = [line] := by
  have ends : isLineEnd 10 = true := by decide
  have single : (10 : CodePoint).val ≠ 13 := by decide
  have same : universalNewlines (line ++ [10]) = line ++ [10] := by
    apply PyText.universalNewlines_eq
    intro point among
    rcases List.mem_append.mp among with inside | last
    · have other := List.all_eq_true.mp plain point inside
      rw [Bool.not_eq_true'] at other
      simp only [isLineEnd, Bool.or_eq_false_iff, Bool.and_eq_false_iff, decide_eq_false_iff_not]
        at other
      omega
    · rw [List.mem_singleton.mp last]
      decide
  rw [pieces, same, PyText.splitLines_append plain ends single]
  rfl

/-- The header of a displayed change is read as its path. -/
theorem newPathOf_header (displayed : isDisplayed quotePath change = true) (path : PyText) :
    (∃ piece ∈ pieces (ofString "+++ " ++ withTab (newSide quotePath change)),
      newPathOf piece = some path) ↔ change.path.text = path ∧ isChapterPath path = true := by
  simp only [isDisplayed, Bool.and_eq_true, Bool.not_eq_true', beq_iff_eq] at displayed
  obtain ⟨⟨⟨⟨kept, -⟩, shown⟩, plain⟩, stripped⟩ := displayed
  have side : newSide quotePath change = sideB ++ change.path.text := by
    rw [← shown]
    unfold isDeletion at kept
    unfold newSide
    cases kind : change.kind with
    | deleted mode =>
        rw [kind] at kept
        cases kept
    | added mode => rfl
    | modified modes => rfl
    | renamed source similarity modes => rfl
  have tab : ∃ tail, (tail = [] ∨ tail = [9]) ∧
    ofString "+++ " ++ withTab (newSide quotePath change) =
      newPathMark ++ (change.path.text ++ tail) := by
    rw [side, withTab]
    split
    · exact ⟨[9], .inr rfl, rfl⟩
    · exact ⟨[], .inl rfl, rfl⟩
  obtain ⟨tail, short, whole⟩ := tab
  have ends : (newPathMark ++ (change.path.text ++ tail)).all (fun point => !isLineEnd point) =
      true := by
    rw [List.all_append, List.all_append, plain]
    rcases short with rfl | rfl <;> decide
  have read : strip (change.path.text ++ tail) = change.path.text := by
    rcases short with rfl | rfl
    · rw [List.append_nil, stripped]
    · rw [PyText.strip_concat (by decide), stripped]
  have starts : startsWith (newPathMark ++ (change.path.text ++ tail)) newPathMark = true :=
    List.isPrefixOf_iff_prefix.mpr (List.prefix_append _ _)
  rw [whole, pieces_plain ends, List.exists_mem_cons_iff]
  simp only [List.not_mem_nil, false_and, exists_false, or_false]
  rw [newPathOf, if_pos starts, List.drop_left, read]
  dsimp only
  constructor
  · intro found
    split at found
    · rename_i chapter
      obtain rfl := Option.some.inj found
      exact ⟨rfl, chapter.2.2⟩
    · cases found
  · rintro ⟨rfl, chapter⟩
    have apart : change.path.text ≠ devNull := by
      intro same
      have wrong : isChapterPath devNull = true := same ▸ chapter
      exact absurd wrong (by decide)
    exact if_pos ⟨change.path.text_ne_nil, apart, chapter⟩

/-- The lines of a displayed change are its header and the others. -/
theorem mem_changeLines (displayed : isDisplayed quotePath change = true) (line : PyText) :
    line ∈ changeLines quotePath change ↔
      line = ofString "+++ " ++ withTab (newSide quotePath change) ∨
        line ∈ otherLines quotePath change := by
  rw [otherLines, if_pos displayed, Git.changeLines_eq, Git.headerLines]
  have hunks : hasHunks change = true := by
    simp only [isDisplayed, Bool.and_eq_true] at displayed
    exact displayed.1.1.1.2
  unfold hasHunks at hunks
  cases body : change.body with
  | none =>
      rw [body] at hunks
      cases hunks
  | binary =>
      rw [body] at hunks
      cases hunks
  | hunks first others =>
      simp only [List.cons_append, List.append_assoc, List.mem_cons, List.mem_append,
        List.not_mem_nil, false_or]
      tauto

/-- A scope is the chapters that are displayed and those that are mimicked. -/
theorem mem_resolveScope_iff (path : PyText) :
    path ∈ resolveScope (some (printDiff quotePath changes)) [] ↔
      Displayed quotePath changes path ∨ Mimicked quotePath changes path := by
  rw [mem_resolveScope]
  constructor
  · rintro ⟨change, member, line, printed, piece, inside, read⟩
    cases displayed : isDisplayed quotePath change with
    | true =>
        rcases (mem_changeLines displayed line).mp printed with rfl | other
        · exact .inl ⟨change, member, displayed,
            (newPathOf_header displayed path).mp ⟨piece, inside, read⟩⟩
        · exact .inr ⟨change, member, line, other, piece, inside, read⟩
    | false =>
        refine .inr ⟨change, member, line, ?_, piece, inside, read⟩
        rw [otherLines, displayed, if_neg Bool.false_ne_true]
        exact printed
  · rintro (⟨change, member, displayed, named⟩ | ⟨change, member, line, other, read⟩)
    · obtain ⟨piece, inside, read⟩ := (newPathOf_header displayed path).mpr named
      exact ⟨change, member, _, (mem_changeLines displayed _).mpr (.inl rfl), piece, inside, read⟩
    · refine ⟨change, member, line, ?_, read⟩
      cases displayed : isDisplayed quotePath change with
      | true => exact (mem_changeLines displayed line).mpr (.inr other)
      | false =>
          rw [otherLines, displayed, if_neg Bool.false_ne_true] at other
          exact other

/-- The scope of a printed diff is the chapters that the change adds or modifies, exactly when each
of them is displayed, or else mimicked, and no other path is mimicked. -/
theorem resolveScope_iff (quotePath : Bool) (changes : List FileChange) :
    (∀ path, path ∈ resolveScope (some (printDiff quotePath changes)) [] ↔
        IsChanged changes path) ↔
      (∀ path, IsChanged changes path →
        Displayed quotePath changes path ∨ Mimicked quotePath changes path) ∧
        ∀ path, Mimicked quotePath changes path → IsChanged changes path := by
  have displayed : ∀ path, Displayed quotePath changes path → IsChanged changes path := by
    rintro path ⟨change, member, shown, named⟩
    simp only [isDisplayed, Bool.and_eq_true, Bool.not_eq_true'] at shown
    exact ⟨change, member, shown.1.1.1.1, named⟩
  simp only [mem_resolveScope_iff]
  constructor
  · exact fun scope => ⟨fun path => (scope path).mpr, fun path mimicked =>
      (scope path).mp (.inr mimicked)⟩
  · rintro ⟨complete, sound⟩ path
    exact ⟨fun found => found.elim (displayed path) (sound path), complete path⟩

theorem oneLine_addedRange : 10 ∉ ofString "-0,0 +1 @@" := by decide

theorem oneLine_heading : 10 ∉ ofString "# A" := by decide

theorem oneLine_headerLike : 10 ∉ ofString "++ b/c.md" := by decide

/-- A chapter with a Cyrillic letter in its name. -/
def cyrillicChapter : FileChange where
  path := ⟨[0xD0, 0xB3, 46, 109, 100], List.cons_ne_nil _ _⟩
  kind := .modified none
  blobs := none
  body := .hunks ⟨⟨ofString "-0,0 +1 @@", oneLine_addedRange⟩,
    [.added ⟨ofString "# A", oneLine_heading⟩]⟩ []

/-- A diff with an added line that looks like a header, of a note that is no chapter. -/
def noteAboutDiffs : FileChange where
  path := ⟨[110, 46, 116, 120, 116], List.cons_ne_nil _ _⟩
  kind := .modified none
  blobs := none
  body := .hunks ⟨⟨ofString "-0,0 +1 @@", oneLine_addedRange⟩,
    [.added ⟨ofString "++ b/c.md", oneLine_headerLike⟩]⟩ []

/-- The chapter falls out of the scope, and what the note tells of falls into it. -/
theorem not_resolveScope_cyrillic :
    (¬ ∀ path, path ∈ resolveScope (some (printDiff true [cyrillicChapter])) [] ↔
        IsChanged [cyrillicChapter] path) ∧
      ¬ ∀ path, path ∈ resolveScope (some (printDiff true [noteAboutDiffs])) [] ↔
        IsChanged [noteAboutDiffs] path := by
  constructor
  · intro scope
    have changed : IsChanged [cyrillicChapter] cyrillicChapter.path.text :=
      ⟨cyrillicChapter, List.mem_cons_self, rfl, rfl, by decide +kernel⟩
    have none : resolveScope (some (printDiff true [cyrillicChapter])) [] = [] := by
      decide +kernel
    have found := (scope _).mpr changed
    rw [none] at found
    cases found
  · intro scope
    have found : ofString "c.md" ∈ resolveScope (some (printDiff true [noteAboutDiffs])) [] := by
      decide +kernel
    obtain ⟨change, member, -, named, -⟩ := (scope _).mp found
    rw [List.mem_singleton.mp member] at named
    exact absurd named (by decide +kernel)

end Orchestrator.Checks
