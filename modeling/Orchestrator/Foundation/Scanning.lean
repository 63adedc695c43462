import Mathlib.Data.List.Basic
import Mathlib.Algebra.BigOperators.Group.List.Basic

/-! # Scanning for marks

A text is scanned from the left for marks that do not overlap, and each mark is replaced. What is
between them stays as it is, and a replacement is not scanned again.
-/

namespace Orchestrator.Foundation

/-- How a mark at the start of a text is read, and how it is written. -/
structure Marks (α β : Type) where
  read : List α → Option (β × List α)
  written : β → List α
  whole : ∀ {text mark rest}, read text = some (mark, rest) → text = written mark ++ rest
  filled : ∀ {text mark rest}, read text = some (mark, rest) → written mark ≠ []

/-- A part of a text that was scanned. -/
inductive MarkPiece (α β : Type) where
  | plain (letter : α)
  | found (mark : β)

namespace Marks

variable {α β : Type} (marks : Marks α β)

/-- The pieces of the rest of a text. -/
def piecesFrom : Nat → List α → List (MarkPiece α β)
  | 0, _ => []
  | _, [] => []
  | fuel + 1, letter :: rest =>
      match marks.read (letter :: rest) with
      | some (mark, after) => .found mark :: piecesFrom fuel after
      | none => .plain letter :: piecesFrom fuel rest

/-- The pieces of a text. -/
def pieces (text : List α) : List (MarkPiece α β) := marks.piecesFrom text.length text

/-- What a piece becomes. -/
def shown (replace : β → List α) : MarkPiece α β → List α
  | .plain letter => [letter]
  | .found mark => replace mark

/-- The marks of a text, replaced. -/
def sub (replace : β → List α) (text : List α) : List α :=
  (marks.pieces text).flatMap (shown replace)

/-- The marks of a text. -/
def found (text : List α) : List β :=
  (marks.pieces text).filterMap fun piece =>
    match piece with
    | .plain _ => none
    | .found mark => some mark

variable {marks} {text : List α} {replace other : β → List α}

theorem mem_found_iff {mark : β} : mark ∈ marks.found text ↔ .found mark ∈ marks.pieces text := by
  rw [found, List.mem_filterMap]
  constructor
  · rintro ⟨piece, among, same⟩
    cases piece with
    | plain letter => cases same
    | found other =>
        cases same
        exact among
  · exact fun among => ⟨.found mark, among, rfl⟩

/-- Replacements that agree on the marks of a text give the same text. -/
theorem sub_congr (agree : ∀ mark ∈ marks.found text, replace mark = other mark) :
    marks.sub replace text = marks.sub other text := by
  apply List.flatMap_congr
  intro piece among
  cases piece with
  | plain letter => rfl
  | found mark => exact agree mark (mem_found_iff.mpr among)

/-- A replacement that is longer at one mark, and shorter at none, gives a longer text. -/
theorem length_sub_lt (longer : ∀ mark, (replace mark).length ≤ (other mark).length)
    {mark : β} (among : mark ∈ marks.found text)
    (grows : (replace mark).length < (other mark).length) :
    (marks.sub replace text).length < (marks.sub other text).length := by
  have piecewise (piece : MarkPiece α β) :
      (shown replace piece).length ≤ (shown other piece).length := by
    cases piece with
    | plain letter => exact Nat.le_refl _
    | found mark => exact longer mark
  have total (pieces : List (MarkPiece α β)) :
      (pieces.flatMap (shown replace)).length ≤ (pieces.flatMap (shown other)).length := by
    induction pieces with
    | nil => exact Nat.le_refl _
    | cons piece rest ih =>
        rw [List.flatMap_cons, List.flatMap_cons, List.length_append, List.length_append]
        exact Nat.add_le_add (piecewise piece) ih
  obtain ⟨front, back, split⟩ := List.append_of_mem (mem_found_iff.mp among)
  rw [sub, sub, split, List.flatMap_append, List.flatMap_append, List.flatMap_cons,
    List.flatMap_cons]
  simp only [List.length_append]
  have before := total front
  have after := total back
  have here : (shown replace (.found mark)).length < (shown other (.found mark)).length := grows
  omega

end Marks

end Orchestrator.Foundation
