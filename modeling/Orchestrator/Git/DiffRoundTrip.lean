import Mathlib.Data.List.Count
import Orchestrator.Git.DiffPaths

/-! # A printed diff is read back

Each change that git prints is one entry, with its path, its kind and its counts. A line that
looks like a header is content after the first hunk; a carriage return in a line ends it, as in
text mode.
-/

namespace Orchestrator.Git

open Orchestrator.Foundation
open Orchestrator.Foundation.PyText (ofString startsWith textLines returnParts)

/-! ## Lines of a header -/

/-- A line that text mode leaves in one. -/
def Whole (line : PyText) : Prop := 10 ∉ line ∧ 13 ∉ line

section Whole

variable {first second line : PyText}

theorem Whole.append (front : Whole first) (back : Whole second) : Whole (first ++ second) := by
  constructor
  · rw [List.mem_append, not_or]
    exact ⟨front.1, back.1⟩
  · rw [List.mem_append, not_or]
    exact ⟨front.2, back.2⟩

theorem whole_of_isControl (plain : ∀ point ∈ line, isControl point = false) : Whole line :=
  ⟨fun among => Bool.false_ne_true (plain 10 among).symm,
    fun among => Bool.false_ne_true (plain 13 among).symm⟩

theorem whole_of_all (plain : line.all (fun point => !isControl point) = true) : Whole line := by
  apply whole_of_isControl
  intro point among
  have clean := List.all_eq_true.mp plain point among
  rwa [Bool.not_eq_true'] at clean

theorem whole_text (text : String)
    (plain : (ofString text).all (fun point => !isControl point) = true) : Whole (ofString text) :=
  whole_of_all plain

theorem whole_naturalLiteral (number : Nat) : Whole (Json.naturalLiteral number) := by
  apply whole_of_isControl
  intro point among
  have clean := writable_naturalLiteral number point among
  rw [writable, Bool.and_eq_true, Bool.not_eq_true'] at clean
  exact clean.1

theorem whole_hexDigits (digits : List (Fin 16)) : Whole (hexDigits digits) := by
  have plain : ∀ digit : Fin 16, isControl (PyText.ofChar (Nat.digitChar digit.val)) = false := by
    decide
  apply whole_of_isControl
  intro point among
  obtain ⟨digit, -, rfl⟩ := List.mem_map.mp among
  exact plain digit

theorem whole_shownPath {side : PyText} {bytes : List UInt8} (isSide : IsSide side bytes)
    (quotePath : Bool) (path : GitPath) : Whole (shownPath quotePath side path) :=
  whole_of_isControl (isControl_shownPath isSide)

theorem Whole.withTab (side : Whole line) : Whole (withTab line) := by
  apply side.append
  split
  · exact ⟨by decide, by decide⟩
  · exact ⟨List.not_mem_nil, List.not_mem_nil⟩

theorem whole_oldSide (quotePath : Bool) (change : FileChange) :
    Whole (oldSide quotePath change) := by
  rw [oldSide]
  split
  · exact whole_of_all rfl
  · exact whole_shownPath isSide_sideA _ _

theorem whole_newSide (quotePath : Bool) (change : FileChange) :
    Whole (newSide quotePath change) := by
  rw [newSide]
  split
  · exact whole_of_all rfl
  · exact whole_shownPath isSide_sideB _ _

theorem whole_modeLines (modes : Option (Nat × Nat)) : ∀ line ∈ modeLines modes, Whole line := by
  cases modes with
  | none => exact fun _ none => absurd none List.not_mem_nil
  | some modes =>
      obtain ⟨old, new⟩ := modes
      rw [modeLines, List.forall_mem_cons, List.forall_mem_singleton]
      constructor
      · exact (whole_text "old mode " rfl).append (whole_naturalLiteral old)
      · exact (whole_text "new mode " rfl).append (whole_naturalLiteral new)

theorem whole_kindLines (quotePath : Bool) (path : GitPath) (kind : ChangeKind) :
    ∀ line ∈ kindLines quotePath path kind, Whole line := by
  cases kind with
  | added mode =>
      rw [kindLines, List.forall_mem_singleton]
      exact (whole_text "new file mode " rfl).append (whole_naturalLiteral mode)
  | deleted mode =>
      rw [kindLines, List.forall_mem_singleton]
      exact (whole_text "deleted file mode " rfl).append (whole_naturalLiteral mode)
  | modified modes => exact whole_modeLines modes
  | renamed source similarity modes =>
      rw [kindLines, List.forall_mem_append]
      refine ⟨whole_modeLines modes, ?_⟩
      rw [List.forall_mem_cons, List.forall_mem_cons, List.forall_mem_singleton]
      refine ⟨?_, ?_, ?_⟩
      · exact ((whole_text "similarity index " rfl).append (whole_naturalLiteral similarity)).append
          (whole_text "%" rfl)
      · exact (whole_text "rename from " rfl).append (whole_shownPath isSide_nil _ _)
      · exact (whole_text "rename to " rfl).append (whole_shownPath isSide_nil _ _)

theorem whole_blobLines (blobs : Option Blobs) : ∀ line ∈ blobLines blobs, Whole line := by
  cases blobs with
  | none => exact fun _ none => absurd none List.not_mem_nil
  | some blobs =>
      rw [blobLines, List.forall_mem_singleton]
      apply (whole_text "index " rfl).append
      apply (((whole_hexDigits _).append (whole_text ".." rfl)).append (whole_hexDigits _)).append
      cases blobs.mode with
      | none => exact ⟨List.not_mem_nil, List.not_mem_nil⟩
      | some mode => exact (whole_text " " rfl).append (whole_naturalLiteral mode)

end Whole

/-! ## Lines of the content -/

/-- The lines of the hunks. -/
def FileChange.contentLines (change : FileChange) : List PyText :=
  change.body.hunkList.flatMap Hunk.text

/-- The lines of the hunks as text mode reads them. -/
def FileChange.readLines (change : FileChange) : List PyText :=
  change.contentLines.flatMap returnParts

/-- No line of a change has the start of a block behind a carriage return. -/
def FileChange.OneBlock (change : FileChange) : Prop :=
  ∀ line ∈ change.contentLines, ¬ 13 :: gitHeader <:+: line

/-- No line of a change has a sign behind a carriage return. -/
def FileChange.NoSigns (change : FileChange) : Prop :=
  ∀ line ∈ change.contentLines, ¬ [13, 43] <:+: line ∧ ¬ [13, 45] <:+: line

/-- Lines that start with a sign. -/
def signed (sign : CodePoint) (line : PyText) : Bool := startsWith line [sign]

/-- What is read of a change: its path and kind, and the signs of the lines that text mode reads. -/
def FileChange.readEntry (change : FileChange) : DiffEntry :=
  { change.entry with
    added := change.readLines.countP (signed 43)
    removed := change.readLines.countP (signed 45) }

theorem signed_cons (sign first : CodePoint) (rest : PyText) :
    signed sign (first :: rest) = (sign == first) := by
  rw [signed, startsWith, List.isPrefixOf_cons_cons, List.isPrefixOf_nil_left, Bool.and_true]

/-- The letter that a line of a hunk starts with. -/
def HunkLine.sign : HunkLine → CodePoint
  | .context _ => 32
  | .added _ => 43
  | .removed _ => 45
  | .noNewline => 92

theorem HunkLine.text_eq (line : HunkLine) : ∃ rest, line.text = line.sign :: rest := by
  cases line with
  | context content => exact ⟨content.text, rfl⟩
  | added content => exact ⟨content.text, rfl⟩
  | removed content => exact ⟨content.text, rfl⟩
  | noNewline => exact ⟨_, rfl⟩

theorem HunkLine.sign_ne (line : HunkLine) : line.sign ≠ 13 ∧ line.sign ≠ 100 := by
  cases line with
  | context _ => exact ⟨(by decide : (32 : CodePoint) ≠ 13), (by decide : (32 : CodePoint) ≠ 100)⟩
  | added _ => exact ⟨(by decide : (43 : CodePoint) ≠ 13), (by decide : (43 : CodePoint) ≠ 100)⟩
  | removed _ => exact ⟨(by decide : (45 : CodePoint) ≠ 13), (by decide : (45 : CodePoint) ≠ 100)⟩
  | noNewline => exact ⟨by decide, by decide⟩

section Signs

variable {sign : CodePoint}

/-- A line with no sign behind a carriage return has at most the one that it starts with. -/
theorem countP_returnParts {first : CodePoint} {rest : PyText} (plain : first ≠ 13)
    (noSign : ¬ [13, sign] <:+: first :: rest) :
    (returnParts (first :: rest)).countP (signed sign) = if sign == first then 1 else 0 := by
  obtain ⟨head, tail, -, parts⟩ := PyText.returnParts_cons plain rest
  have others : tail.countP (signed sign) = 0 := by
    rw [List.countP_eq_zero]
    intro part among starts
    apply noSign
    have behind : 13 :: part <:+: first :: rest := PyText.returnParts_tail (by rwa [parts])
    obtain ⟨more, rfl⟩ := List.isPrefixOf_iff_prefix.mp starts
    exact (List.prefix_append [13, sign] more).isInfix.trans behind
  rw [parts, List.countP_cons, others, signed_cons, Nat.zero_add]

/-- The signs of a hunk are those of its lines. -/
theorem countP_hunk {has : HunkLine → Bool} (agrees : ∀ line, (sign == line.sign) = has line)
    (other : sign ≠ 64) {hunk : Hunk} (noSigns : ∀ line ∈ hunk.text, ¬ [13, sign] <:+: line) :
    (hunk.text.flatMap returnParts).countP (signed sign) = hunk.lines.countP has := by
  obtain ⟨place, lines⟩ := hunk
  rw [Hunk.text, List.forall_mem_cons] at noSigns
  obtain ⟨header, content⟩ := noSigns
  have start : (returnParts (ofString "@@ " ++ place.text)).countP (signed sign) = 0 := by
    have plain : (64 : CodePoint) ≠ 13 := by decide
    have counted : (returnParts (64 :: 64 :: 32 :: place.text)).countP (signed sign) =
        if sign == 64 then 1 else 0 := countP_returnParts plain header
    rw [beq_eq_false_iff_ne.mpr other] at counted
    exact counted
  rw [Hunk.text, List.flatMap_cons, List.countP_append, start, Nat.zero_add]
  induction lines with
  | nil => rfl
  | cons line rest ih =>
      rw [List.map_cons, List.forall_mem_cons] at content
      obtain ⟨after, shown⟩ := line.text_eq
      rw [List.map_cons, List.flatMap_cons, List.countP_append, ih header content.2,
        List.countP_cons, shown,
        countP_returnParts line.sign_ne.1 (shown ▸ content.1), agrees, Nat.add_comm]

/-- The signs of a change are those of the lines of its hunks. -/
theorem countP_hunks {has : HunkLine → Bool} (agrees : ∀ line, (sign == line.sign) = has line)
    (other : sign ≠ 64) {hunks : List Hunk}
    (noSigns : ∀ line ∈ hunks.flatMap Hunk.text, ¬ [13, sign] <:+: line) :
    ((hunks.flatMap Hunk.text).flatMap returnParts).countP (signed sign) =
      (hunks.flatMap Hunk.lines).countP has := by
  induction hunks with
  | nil => rfl
  | cons hunk rest ih =>
      rw [List.flatMap_cons, List.forall_mem_append] at noSigns
      rw [List.flatMap_cons, List.flatMap_append, List.countP_append, List.flatMap_cons,
        List.countP_append, countP_hunk agrees other noSigns.1, ih noSigns.2]

end Signs

/-- Without signs behind carriage returns, what is read is what was changed. -/
theorem FileChange.readEntry_eq_entry {change : FileChange} (noSigns : change.NoSigns) :
    change.readEntry = change.entry := by
  have added (line : HunkLine) : ((43 : CodePoint) == line.sign) = line.isAdded := by
    cases line <;> rfl
  have removed (line : HunkLine) : ((45 : CodePoint) == line.sign) = line.isRemoved := by
    cases line <;> rfl
  have plus := countP_hunks added (by decide) fun line among => (noSigns line among).1
  have minus := countP_hunks removed (by decide) fun line among => (noSigns line among).2
  rw [readEntry, readLines, contentLines, plus, minus]
  rfl

/-! ## Reading the content -/

/-- A part of a content line starts no block. -/
theorem startsWith_gitHeader_part {first : CodePoint} {rest part : PyText} (plain : first ≠ 13)
    (other : first ≠ 100) (oneBlock : ¬ 13 :: gitHeader <:+: first :: rest)
    (among : part ∈ returnParts (first :: rest)) : startsWith part gitHeader = false := by
  rw [Bool.eq_false_iff]
  intro starts
  obtain ⟨more, rfl⟩ := List.isPrefixOf_iff_prefix.mp starts
  obtain ⟨head, tail, -, parts⟩ := PyText.returnParts_cons plain rest
  rw [parts] at among
  rcases List.mem_cons.mp among with same | later
  · exact other (List.cons.inj same).1.symm
  · have behind : 13 :: (gitHeader ++ more) <:+: first :: rest :=
      PyText.returnParts_tail (by rwa [parts])
    exact oneBlock ((List.prefix_append (13 :: gitHeader) more).isInfix.trans behind)

/-- The reading of a block. -/
def reading (entries : List DiffEntry) (block : DiffBlock) (inHeader : Bool) : DiffReading where
  entries := entries
  block := some block
  inHeader := inHeader

variable {entries : List DiffEntry} {block : DiffBlock}

/-- A block with more lines counted. -/
def DiffBlock.plus (block : DiffBlock) (added removed : Nat) : DiffBlock :=
  { block with added := block.added + added, removed := block.removed + removed }

theorem DiffBlock.plus_plus (block : DiffBlock) (added removed more fewer : Nat) :
    (block.plus added removed).plus more fewer = block.plus (added + more) (removed + fewer) := by
  rw [plus, plus, plus, Nat.add_assoc, Nat.add_assoc]

/-- A line has one sign at most. -/
theorem signed_eq_false {line : PyText} (plus : signed 43 line = true) :
    signed 45 line = false := by
  cases line with
  | nil => rfl
  | cons first rest =>
      rw [signed_cons, beq_iff_eq] at plus
      rw [signed_cons, ← plus]
      rfl

/-- After the header a line counts by its sign. -/
theorem readLine_content {line : PyText} (content : startsWith line gitHeader = false) :
    (reading entries block false).readLine line =
      reading entries (block.plus (if signed 43 line then 1 else 0)
        (if signed 45 line then 1 else 0)) false := by
  rw [DiffReading.readLine, content]
  by_cases plus : signed 43 line = true
  · rw [if_pos plus, signed_eq_false plus]
    exact if_pos plus
  · rw [if_neg plus]
    by_cases minus : signed 45 line = true
    · rw [if_pos minus]
      exact (if_neg plus).trans (if_pos minus)
    · rw [if_neg minus]
      exact (if_neg plus).trans (if_neg minus)

/-- The signs of the lines after a header are counted. -/
theorem foldl_content {lines : List PyText}
    (content : ∀ line ∈ lines, startsWith line gitHeader = false) :
    lines.foldl DiffReading.readLine (reading entries block false) =
      reading entries (block.plus (lines.countP (signed 43)) (lines.countP (signed 45))) false := by
  induction lines generalizing block with
  | nil => rfl
  | cons line rest ih =>
      obtain ⟨here, others⟩ := List.forall_mem_cons.mp content
      rw [List.foldl_cons, readLine_content here, ih others, DiffBlock.plus_plus, List.countP_cons,
        List.countP_cons, Nat.add_comm (rest.countP _), Nat.add_comm (rest.countP _)]

/-- What a header shows of a path. -/
def startedBlock (quotePath : Bool) (change : FileChange) : DiffBlock where
  gitLine := shownPath quotePath sideA change.source ++ [32] ++
    shownPath quotePath sideB change.path

/-- A block with its kind read. -/
def DiffBlock.withKind (block : DiffBlock) (path : GitPath) : ChangeKind → DiffBlock
  | .added _ => { block with kind := .A }
  | .deleted _ => { block with kind := .D }
  | .modified _ => block
  | .renamed source _ _ =>
      { block with renameFrom := some source.text, renameTo := some path.text }

theorem foldl_modeLines (modes : Option (Nat × Nat)) :
    (modeLines modes).foldl DiffReading.readLine (reading entries block true) =
      reading entries block true := by
  cases modes with
  | none => rfl
  | some modes => rfl

/-- The extended header names the kind. -/
theorem foldl_kindLines (quotePath : Bool) (path : GitPath) (kind : ChangeKind) :
    (kindLines quotePath path kind).foldl DiffReading.readLine (reading entries block true) =
      reading entries (block.withKind path kind) true := by
  cases kind with
  | added mode => rfl
  | deleted mode => rfl
  | modified modes => exact foldl_modeLines modes
  | renamed source similarity modes =>
      have before : unquote (shownPath quotePath [] source) = source.text :=
        unquote_shownPath isSide_nil
      have after : unquote (shownPath quotePath [] path) = path.text :=
        unquote_shownPath isSide_nil
      rw [kindLines, List.foldl_append, foldl_modeLines, DiffBlock.withKind, ← before, ← after]
      rfl

theorem foldl_blobLines (blobs : Option Blobs) :
    (blobLines blobs).foldl DiffReading.readLine (reading entries block true) =
      reading entries block true := by
  cases blobs with
  | none => rfl
  | some blobs => rfl

/-- The first hunk ends the header. -/
theorem readLine_hunk (rest : PyText) :
    (reading entries block true).readLine (64 :: 64 :: rest) = reading entries block false :=
  rfl

/-- The sides of a change as its header names them. -/
def FileChange.oldPath (change : FileChange) : Option PyText :=
  match change.kind with
  | .added _ => none
  | _ => some change.source.text

def FileChange.newPath (change : FileChange) : Option PyText :=
  match change.kind with
  | .deleted _ => none
  | _ => some change.path.text

theorem sidePath_oldSide (quotePath : Bool) (change : FileChange) :
    sidePath (withTab (oldSide quotePath change)) sideA = change.oldPath := by
  rw [oldSide, FileChange.oldPath]
  cases change.kind with
  | added _ => exact sidePath_devNull sideA
  | deleted _ => exact sidePath_shownPath (by decide) isSide_sideA
  | modified _ => exact sidePath_shownPath (by decide) isSide_sideA
  | renamed _ _ _ => exact sidePath_shownPath (by decide) isSide_sideA

theorem sidePath_newSide (quotePath : Bool) (change : FileChange) :
    sidePath (withTab (newSide quotePath change)) sideB = change.newPath := by
  rw [newSide, FileChange.newPath]
  cases change.kind with
  | added _ => exact sidePath_shownPath (by decide) isSide_sideB
  | deleted _ => exact sidePath_devNull sideB
  | modified _ => exact sidePath_shownPath (by decide) isSide_sideB
  | renamed _ _ _ => exact sidePath_shownPath (by decide) isSide_sideB

/-- The lines of the two sides name the paths. -/
theorem foldl_sides (quotePath : Bool) (change : FileChange) :
    [ofString "--- " ++ withTab (oldSide quotePath change),
        ofString "+++ " ++ withTab (newSide quotePath change)].foldl DiffReading.readLine
      (reading entries block true) =
      reading entries { block with oldPath := change.oldPath, newPath := change.newPath } true := by
  rw [← sidePath_oldSide quotePath, ← sidePath_newSide quotePath]
  rfl

/-! ## Entries -/

/-- A block whose header is read. -/
def headerBlock (quotePath : Bool) (change : FileChange) : DiffBlock :=
  let block := (startedBlock quotePath change).withKind change.path change.kind
  match change.body with
  | .hunks _ _ => { block with oldPath := change.oldPath, newPath := change.newPath }
  | _ => block

/-- A block at the end of its change, with the counts of its content. -/
def finalBlock (quotePath : Bool) (change : FileChange) : DiffBlock :=
  { headerBlock quotePath change with
    added := change.readLines.countP (signed 43)
    removed := change.readLines.countP (signed 45) }

theorem filled_text (path : GitPath) : filled (some path.text) = some path.text := by
  have noText : path.text.isEmpty = false :=
    Bool.eq_false_iff.mpr fun empty => path.text_ne_nil (List.isEmpty_iff.mp empty)
  rw [filled, Option.filter_some, noText]
  rfl

/-- Where no side names a path the first line does. -/
theorem entry_of_gitLine {path : PyText} (noRename : block.renameFrom = none)
    (noOld : block.oldPath = none) (noNew : block.newPath = none)
    (named : pathFromGitLine block.gitLine = some path) : block.entry =
      some { path := path, kind := block.kind, added := block.added, removed :=
        block.removed } := by
  rw [DiffBlock.entry, noRename, noOld, noNew, named, ite_self]
  rfl

/-- The side that a kind goes by names the path. -/
theorem entry_of_side {path : PyText} (noRename : block.renameFrom = none)
    (named : filled (if block.kind = .D then block.oldPath else block.newPath) = some path) :
    block.entry =
      some { path := path, kind := block.kind, added := block.added, removed :=
        block.removed } := by
  rw [DiffBlock.entry, noRename, named]
  rfl

/-- A block at its end has the entry of its change. -/
theorem entry_finalBlock (quotePath : Bool) (change : FileChange) :
    (finalBlock quotePath change).entry = some change.readEntry := by
  obtain ⟨path, kind, blobs, body⟩ := change
  cases kind with
  | added mode =>
      cases body with
      | none => exact entry_of_gitLine rfl rfl rfl pathFromGitLine_shownPath
      | binary => exact entry_of_gitLine rfl rfl rfl pathFromGitLine_shownPath
      | hunks first others =>
          refine entry_of_side ?_ ?_
          · rfl
          · exact filled_text path
  | deleted mode =>
      cases body with
      | none => exact entry_of_gitLine rfl rfl rfl pathFromGitLine_shownPath
      | binary => exact entry_of_gitLine rfl rfl rfl pathFromGitLine_shownPath
      | hunks first others =>
          refine entry_of_side ?_ ?_
          · rfl
          · exact filled_text path
  | modified modes =>
      cases body with
      | none => exact entry_of_gitLine rfl rfl rfl pathFromGitLine_shownPath
      | binary => exact entry_of_gitLine rfl rfl rfl pathFromGitLine_shownPath
      | hunks first others =>
          refine entry_of_side ?_ ?_
          · rfl
          · exact filled_text path
  | renamed source similarity modes =>
      cases body with
      | none => rfl
      | binary => rfl
      | hunks first others => rfl

/-! ## Blocks -/

/-- The lines of a header. -/
def headerLines (quotePath : Bool) (change : FileChange) : List PyText :=
  kindLines quotePath change.path change.kind ++ blobLines change.blobs ++
    match change.body with
    | .none => []
    | .binary => [ofString "Binary files " ++ oldSide quotePath change ++ ofString " and " ++
        newSide quotePath change ++ ofString " differ"]
    | .hunks _ _ => [ofString "--- " ++ withTab (oldSide quotePath change),
        ofString "+++ " ++ withTab (newSide quotePath change)]

/-- The first line of a block. -/
def gitLine (quotePath : Bool) (change : FileChange) : PyText :=
  gitHeader ++ shownPath quotePath sideA change.source ++ [32] ++
    shownPath quotePath sideB change.path

theorem changeLines_eq (quotePath : Bool) (change : FileChange) :
    changeLines quotePath change =
      gitLine quotePath change :: headerLines quotePath change ++ change.contentLines := by
  rw [changeLines, bodyLines, headerLines, FileChange.contentLines]
  cases change.body with
  | none => exact (List.append_nil _).symm
  | binary => exact (List.append_nil _).symm
  | hunks first others =>
      dsimp only [ChangeBody.hunkList, gitLine]
      simp only [List.append_assoc, List.cons_append, List.nil_append]

/-- Text mode leaves the lines of a header as they are. -/
theorem whole_headerLines (quotePath : Bool) (change : FileChange) :
    ∀ line ∈ gitLine quotePath change :: headerLines quotePath change, Whole line := by
  have old := whole_oldSide quotePath change
  have new := whole_newSide quotePath change
  rw [List.forall_mem_cons, headerLines, List.forall_mem_append, List.forall_mem_append]
  refine ⟨?_, ⟨whole_kindLines _ _ _, whole_blobLines _⟩, ?_⟩
  · exact (((whole_text "diff --git " rfl).append (whole_shownPath isSide_sideA _ _)).append
      (whole_text " " rfl)).append (whole_shownPath isSide_sideB _ _)
  · cases change.body with
    | none => exact fun _ none => absurd none List.not_mem_nil
    | binary =>
        rw [List.forall_mem_singleton]
        exact ((((whole_text "Binary files " rfl).append old).append
          (whole_text " and " rfl)).append new).append (whole_text " differ" rfl)
    | hunks first others =>
        rw [List.forall_mem_cons, List.forall_mem_singleton]
        exact ⟨(whole_text "--- " rfl).append old.withTab,
          (whole_text "+++ " rfl).append new.withTab⟩

theorem flatMap_returnParts_whole {lines : List PyText} (whole : ∀ line ∈ lines, Whole line) :
    lines.flatMap returnParts = lines := by
  induction lines with
  | nil => rfl
  | cons line rest ih =>
      obtain ⟨here, others⟩ := List.forall_mem_cons.mp whole
      rw [List.flatMap_cons, PyText.returnParts_plain here.2, ih others, List.singleton_append]

/-- The lines of a change as text mode reads them. -/
theorem flatMap_returnParts_changeLines (quotePath : Bool) (change : FileChange) :
    (changeLines quotePath change).flatMap returnParts =
      gitLine quotePath change :: headerLines quotePath change ++ change.readLines := by
  rw [changeLines_eq, List.flatMap_append,
    flatMap_returnParts_whole (whole_headerLines quotePath change), FileChange.readLines]

theorem HunkLine.oneLine (line : HunkLine) : 10 ∉ line.text := by
  have other {sign : CodePoint} {content : LineText} (plain : 10 ≠ sign) :
      10 ∉ sign :: content.text := by
    rw [List.mem_cons, not_or]
    exact ⟨plain, content.oneLine⟩
  cases line with
  | context content => exact other (by decide)
  | added content => exact other (by decide)
  | removed content => exact other (by decide)
  | noNewline => exact (whole_text "\\ No newline at end of file" rfl).1

/-- No line of a change has an end in it. -/
theorem oneLine_changeLines (quotePath : Bool) (change : FileChange) :
    ∀ line ∈ changeLines quotePath change, 10 ∉ line := by
  rw [changeLines_eq, List.forall_mem_append]
  refine ⟨fun line among => (whole_headerLines quotePath change line among).1, ?_⟩
  intro line among
  obtain ⟨hunk, -, listed⟩ := List.mem_flatMap.mp among
  rw [Hunk.text] at listed
  rcases List.mem_cons.mp listed with rfl | inside
  · rw [List.mem_append, not_or]
    exact ⟨(whole_text "@@ " rfl).1, hunk.place.oneLine⟩
  · obtain ⟨shown, -, rfl⟩ := List.mem_map.mp inside
    exact shown.oneLine

/-- The header of a change is read into its block. -/
theorem foldl_headerLines (quotePath : Bool) (change : FileChange) (before : DiffReading) :
    (gitLine quotePath change :: headerLines quotePath change).foldl DiffReading.readLine before =
      reading before.close (headerBlock quotePath change) true := by
  have first : before.readLine (gitLine quotePath change) =
      reading before.close (startedBlock quotePath change) true := rfl
  rw [List.foldl_cons, first, headerLines, List.foldl_append, List.foldl_append, foldl_kindLines,
    foldl_blobLines, headerBlock]
  cases change.body with
  | none => rfl
  | binary => rfl
  | hunks _ _ => exact foldl_sides quotePath change

/-- A line of content starts with a letter that neither ends a line nor starts a block. -/
theorem content_starts {hunk : Hunk} {line : PyText} (among : line ∈ hunk.text) :
    ∃ first rest, line = first :: rest ∧ first ≠ 13 ∧ first ≠ 100 := by
  rw [Hunk.text] at among
  rcases List.mem_cons.mp among with rfl | inside
  · exact ⟨64, _, rfl, by decide, by decide⟩
  · obtain ⟨shown, -, rfl⟩ := List.mem_map.mp inside
    obtain ⟨rest, same⟩ := shown.text_eq
    exact ⟨shown.sign, rest, same, shown.sign_ne⟩

/-- No line that is read of a change starts a block. -/
theorem startsWith_gitHeader_readLines {change : FileChange} (oneBlock : change.OneBlock) :
    ∀ line ∈ change.readLines, startsWith line gitHeader = false := by
  intro part among
  obtain ⟨line, listed, inside⟩ := List.mem_flatMap.mp among
  obtain ⟨hunk, -, there⟩ := List.mem_flatMap.mp listed
  obtain ⟨first, rest, rfl, plain, other⟩ := content_starts there
  exact startsWith_gitHeader_part plain other (oneBlock _ listed) inside

/-- The content of a change starts with a hunk, or there is none. -/
theorem readLines_cases (change : FileChange) :
    change.readLines = [] ∨ ∃ head rest, change.readLines = (64 :: 64 :: head) :: rest := by
  rw [FileChange.readLines, FileChange.contentLines]
  cases change.body with
  | none => exact .inl rfl
  | binary => exact .inl rfl
  | hunks first others =>
      have at_ : (64 : CodePoint) ≠ 13 := by decide
      obtain ⟨inner, tail, second, parts⟩ :=
        PyText.returnParts_cons at_ (64 :: 32 :: first.place.text)
      obtain ⟨head, _, -, same⟩ := PyText.returnParts_cons at_ (32 :: first.place.text)
      rw [same] at second
      cases second
      right
      refine ⟨head, tail ++ (first.lines.map HunkLine.text ++
        others.flatMap Hunk.text).flatMap returnParts, ?_⟩
      change (returnParts (64 :: 64 :: 32 :: first.place.text) ++ _) = _
      rw [parts]
      rfl

theorem headerBlock_counts (quotePath : Bool) (change : FileChange) :
    (headerBlock quotePath change).added = 0 ∧ (headerBlock quotePath change).removed = 0 := by
  rw [headerBlock]
  cases change.kind <;> cases change.body <;> exact ⟨rfl, rfl⟩

/-- Counting on from nothing sets the counts. -/
theorem DiffBlock.plus_of_zero {block : DiffBlock} (none : block.added = 0 ∧ block.removed = 0)
    (added removed : Nat) :
    block.plus added removed = { block with added := added, removed := removed } := by
  rw [plus, none.1, none.2, Nat.zero_add, Nat.zero_add]

/-- The lines of a change close the block before, and leave its own block open. -/
theorem foldl_changeLines (quotePath : Bool) {change : FileChange} (oneBlock : change.OneBlock)
    (before : DiffReading) : ∃ inHeader,
      (gitLine quotePath change :: headerLines quotePath change ++ change.readLines).foldl
          DiffReading.readLine before =
        reading before.close (finalBlock quotePath change) inHeader := by
  have content := startsWith_gitHeader_readLines oneBlock
  have counts := headerBlock_counts quotePath change
  rw [List.foldl_append, foldl_headerLines, finalBlock, ← DiffBlock.plus_of_zero counts]
  rcases readLines_cases change with none | ⟨head, rest, lines⟩
  · rw [none]
    exact ⟨true, rfl⟩
  · have start (sign : CodePoint) (other : sign ≠ 64) :
        (signed sign (64 :: 64 :: head)) = false := by
      rw [signed_cons, beq_eq_false_iff_ne]
      exact other
    rw [lines] at content ⊢
    refine ⟨false, ?_⟩
    rw [List.foldl_cons, readLine_hunk, foldl_content (List.forall_mem_cons.mp content).2,
      List.countP_cons, List.countP_cons, start 43 (by decide), start 45 (by decide)]
    rfl

/-! ## The diff -/

/-- The blocks of changes are read one after another. -/
theorem foldl_changes (quotePath : Bool) {changes : List FileChange}
    (oneBlock : ∀ change ∈ changes, change.OneBlock) (before : DiffReading) :
    (((changes.flatMap (changeLines quotePath)).flatMap returnParts).foldl DiffReading.readLine
      before).close = before.close ++ changes.map FileChange.readEntry := by
  induction changes generalizing before with
  | nil => exact (List.append_nil _).symm
  | cons change rest ih =>
      obtain ⟨here, others⟩ := List.forall_mem_cons.mp oneBlock
      obtain ⟨inHeader, read⟩ := foldl_changeLines quotePath here before
      have closed : (reading before.close (finalBlock quotePath change) inHeader).close =
          before.close ++ [change.readEntry] := by
        rw [DiffReading.close, reading, Option.bind_some, entry_finalBlock]
        rfl
      rw [List.flatMap_cons, List.flatMap_append, List.foldl_append,
        flatMap_returnParts_changeLines, read, ih others, closed, List.map_cons, List.append_assoc,
        List.singleton_append]

/-- Text mode reads written lines as their parts, and nothing after them. -/
theorem textLines_lines {lines : List PyText} (oneLine : ∀ line ∈ lines, 10 ∉ line) :
    textLines (lines.flatMap fun line => line ++ [10]) = lines.flatMap returnParts ++ [[]] := by
  induction lines with
  | nil => rfl
  | cons line rest ih =>
      obtain ⟨here, others⟩ := List.forall_mem_cons.mp oneLine
      rw [List.flatMap_cons, List.append_assoc, List.singleton_append, PyText.textLines_line here,
        ih others, List.flatMap_cons, List.append_assoc]

/-- An empty line says nothing. -/
theorem close_readLine_nil (before : DiffReading) : (before.readLine []).close = before.close := by
  obtain ⟨entries, block, inHeader⟩ := before
  cases block with
  | none => rfl
  | some block =>
      cases inHeader with
      | true => rfl
      | false => rfl

/-- A printed diff has an entry for each change: its path and kind, and the counts of the lines that
text mode reads, which are the lines added and removed where no sign stands behind a carriage
return. -/
theorem parseDiff_printDiff (quotePath : Bool) {changes : List FileChange}
    (oneBlock : ∀ change ∈ changes, change.OneBlock) :
    parseDiff (printDiff quotePath changes) = changes.map FileChange.readEntry ∧
      ∀ change ∈ changes, change.NoSigns → change.readEntry = change.entry := by
  refine ⟨?_, fun change _ => FileChange.readEntry_eq_entry⟩
  have oneLine : ∀ line ∈ changes.flatMap (changeLines quotePath), 10 ∉ line := by
    intro line among
    obtain ⟨change, -, listed⟩ := List.mem_flatMap.mp among
    exact oneLine_changeLines quotePath change line listed
  rw [parseDiff, printDiff, textLines_lines oneLine, List.foldl_append, List.foldl_cons,
    List.foldl_nil, close_readLine_nil, foldl_changes quotePath oneBlock]
  rfl

/-- Lines without carriage returns have nothing behind one. -/
theorem FileChange.oneBlock_of_noReturn {change : FileChange}
    (noReturn : ∀ line ∈ change.contentLines, 13 ∉ line) : change.OneBlock :=
  fun line among inside => noReturn line among (inside.subset List.mem_cons_self)

def spacedPath : GitPath := ⟨[97, 32, 98], List.cons_ne_nil _ _⟩

/-- A change whose lines look like headers. -/
def lookalike : FileChange where
  path := spacedPath
  kind := .modified none
  blobs := some ⟨[1, 2, 3], [4, 5, 6], some 100644⟩
  body := .hunks ⟨⟨ofString "-1,2 +1,2 @@", by decide⟩,
    [.removed ⟨ofString "-- a/x", by decide⟩, .added ⟨ofString "++ b/y", by decide⟩,
      .context ⟨ofString "diff --git a/x b/x", by decide⟩]⟩ []

theorem parseDiff_lookalike : parseDiff (printDiff true [lookalike]) = [lookalike].map
      FileChange.readEntry ∧
    ∀ change ∈ [lookalike], change.NoSigns → change.readEntry = change.entry := by
  apply parseDiff_printDiff
  rw [List.forall_mem_singleton]
  apply FileChange.oneBlock_of_noReturn
  have plain : (lookalike.contentLines.all fun line => List.all line (· ≠ 13)) = true := rfl
  intro line among inside
  have others := List.all_eq_true.mp (List.all_eq_true.mp plain line among) 13 inside
  exact of_decide_eq_true others rfl

/-- One added line with a sign behind a carriage return. -/
def returnChange : FileChange where
  path := spacedPath
  kind := .modified none
  blobs := none
  body := .hunks ⟨⟨ofString "-0,0 +1 @@", by decide⟩, [.added ⟨ofString "foo\r+bar", by decide⟩]⟩ []

/-- It is read as two. -/
theorem returnChange_misread :
    parseDiff (printDiff true [returnChange]) ≠ [returnChange].map FileChange.entry := by
  decide +kernel

end Orchestrator.Git
