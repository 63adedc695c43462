import Orchestrator.Foundation.PyText
import Orchestrator.Foundation.Text

/-! # POSIX paths

What `pathlib` makes of a path text on POSIX: repeated slashes and single dots are
dropped, `..` is kept.
-/

namespace Orchestrator.Foundation.PosixPath

/-- The root of a path: none, one slash, or exactly two. -/
def root (path : List Char) : List Char :=
  match (path.takeWhile (· = '/')).length with
  | 0 => []
  | 2 => ['/', '/']
  | _ => ['/']

/-- The names between the slashes. -/
def parts (path : List Char) : List (List Char) :=
  (path.splitOn '/').filter fun part => decide (part ≠ [] ∧ part ≠ ['.'])

/-- The path of a root and parts; the empty one is a dot. -/
def join (root : List Char) (parts : List (List Char)) : String :=
  match root ++ ['/'].intercalate parts with
  | [] => "."
  | letters => String.ofList letters

/-- `Path(path).as_posix()`. -/
def asPosix (path : String) : String := join (root path.toList) (parts path.toList)

/-- `Path(path).name`. -/
def name (path : String) : String := String.ofList ((parts path.toList).getLast?.getD [])

/-! ## Normal paths -/

theorem not_mem_of_mem_splitOn {α : Type} [DecidableEq α] {letter : α} {letters part : List α}
    (among : part ∈ letters.splitOn letter) : letter ∉ part := by
  induction letters generalizing part with
  | nil =>
      cases List.mem_singleton.mp among
      exact List.not_mem_nil
  | cons first rest ih =>
      rw [List.splitOn_cons_eq_if_modifyHead] at among
      by_cases same : first = letter
      · rw [if_pos (beq_iff_eq.mpr same)] at among
        rcases List.mem_cons.mp among with rfl | later
        · exact List.not_mem_nil
        · exact ih later
      · rw [if_neg (mt beq_iff_eq.mp same)] at among
        cases split : rest.splitOn letter with
        | nil => exact absurd split (List.splitOn_ne_nil letter rest)
        | cons head tail =>
            rw [split, List.modifyHead_cons] at among
            rcases List.mem_cons.mp among with rfl | later
            · intro found
              rcases List.mem_cons.mp found with here | found
              · exact same here.symm
              · exact ih (split ▸ List.mem_cons_self) found
            · exact ih (split ▸ List.mem_cons_of_mem _ later)

/-- A part as it stands in a path: a name without slashes that is no dot. -/
def IsPart (part : List Char) : Prop := part ≠ [] ∧ part ≠ ['.'] ∧ '/' ∉ part

theorem isPart_of_mem_parts {path part : List Char} (among : part ∈ parts path) : IsPart part := by
  obtain ⟨split, kept⟩ := List.mem_filter.mp among
  obtain ⟨filled, real⟩ := of_decide_eq_true kept
  exact ⟨filled, real, not_mem_of_mem_splitOn split⟩

theorem root_cases (path : List Char) :
    root path = [] ∨ root path = ['/'] ∨ root path = ['/', '/'] := by
  unfold root
  split
  · exact .inl rfl
  · exact .inr (.inr rfl)
  · exact .inr (.inl rfl)

/-- Parts that are joined do not start with a slash. -/
theorem takeWhile_intercalate {names : List (List Char)} (all : ∀ part ∈ names, IsPart part) :
    (['/'].intercalate names).takeWhile (· = '/') = [] := by
  cases names with
  | nil => rfl
  | cons first rest =>
      obtain ⟨filled, -, clean⟩ := all first List.mem_cons_self
      obtain ⟨letter, letters, rfl⟩ := List.exists_cons_of_ne_nil filled
      have start : letter ≠ '/' := fun same => clean (same ▸ List.mem_cons_self)
      cases rest with
      | nil => simp [start]
      | cons second rest => simp [List.intercalate_cons_cons, start]

theorem parts_intercalate {names : List (List Char)} (all : ∀ part ∈ names, IsPart part) :
    parts (['/'].intercalate names) = names := by
  by_cases none : names = []
  · subst none
    rfl
  · rw [parts, List.splitOn_intercalate '/' (fun part among => (all part among).2.2) none]
    exact List.filter_eq_self.mpr fun part among =>
      decide_eq_true ⟨(all part among).1, (all part among).2.1⟩

theorem parts_cons_slash (path : List Char) : parts ('/' :: path) = parts path := by
  rw [parts, List.splitOn_cons_eq_if_modifyHead, if_pos (beq_self_eq_true '/'),
    List.filter_cons_of_neg (by simp)]
  rfl

/-- Joining and taking apart again leaves root and parts as they were. -/
theorem root_parts_join {start : List Char}
    (rooted : start = [] ∨ start = ['/'] ∨ start = ['/', '/']) {names : List (List Char)}
    (all : ∀ part ∈ names, IsPart part) :
    root (join start names).toList = start ∧ parts (join start names).toList = names := by
  have plain := takeWhile_intercalate all
  have again := parts_intercalate all
  rcases rooted with rfl | rfl | rfl
  · by_cases none : names = []
    · subst none
      exact ⟨rfl, rfl⟩
    · have filled : ['/'].intercalate names ≠ [] := by
        intro empty
        rw [empty] at again
        exact none again.symm
      obtain ⟨letter, letters, shape⟩ := List.exists_cons_of_ne_nil filled
      have joined : join [] names = String.ofList (['/'].intercalate names) := by
        rw [join, List.nil_append, shape]
      rw [joined, String.toList_ofList, root, plain]
      exact ⟨rfl, again⟩
  · have joined : join ['/'] names = String.ofList ('/' :: ['/'].intercalate names) := rfl
    rw [joined, String.toList_ofList, parts_cons_slash]
    refine ⟨?_, again⟩
    rw [root, List.takeWhile_cons_of_pos (by simp), plain]
    rfl
  · have joined : join ['/', '/'] names =
        String.ofList ('/' :: '/' :: ['/'].intercalate names) := rfl
    rw [joined, String.toList_ofList, parts_cons_slash, parts_cons_slash]
    refine ⟨?_, again⟩
    rw [root, List.takeWhile_cons_of_pos (by simp), List.takeWhile_cons_of_pos (by simp), plain]
    rfl

/-- A normal path is its own normal form. -/
@[simp] theorem asPosix_asPosix (path : String) : asPosix (asPosix path) = asPosix path := by
  obtain ⟨sameRoot, sameParts⟩ := root_parts_join (root_cases path.toList)
    (fun _ among => isPart_of_mem_parts among)
  rw [asPosix, asPosix, sameRoot, sameParts]

end Orchestrator.Foundation.PosixPath

/-! ## Relative paths

What `pathlib` makes of the text of a relative path: its parts, their text again, and the suffix
of a file's name.
-/

namespace Orchestrator.Foundation.PathParts

open PyText

def slash : CodePoint := ofChar '/'

def dot : CodePoint := ofChar '.'

/-- Whether a path starts at the root. -/
def isAbsolute (text : PyText) : Bool := text.head? = some slash

/-- The names between the slashes, without single dots. -/
def parts (text : PyText) : List PyText :=
  (text.splitOn slash).filter fun part => decide (part ≠ [] ∧ part ≠ [dot])

/-- `as_posix`: the empty path is a dot. -/
def asPosix (names : List PyText) : PyText :=
  if names = [] then [dot] else [slash].intercalate names

/-- `name`. -/
def fileName (names : List PyText) : PyText := names.getLast?.getD []

/-- `suffix` of a file's name: it starts at the last dot that is neither first nor last. -/
def suffix (name : PyText) : PyText :=
  let tail := name.reverse.takeWhile fun point => point ≠ dot
  if tail ≠ [] ∧ tail.length + 1 < name.length then dot :: tail.reverse else []

/-- A part as it stands in a path. -/
def IsPart (part : PyText) : Prop := part ≠ [] ∧ part ≠ [dot] ∧ slash ∉ part

theorem isPart_of_mem_parts {text part : PyText} (among : part ∈ parts text) : IsPart part := by
  obtain ⟨split, kept⟩ := List.mem_filter.mp among
  obtain ⟨filled, real⟩ := of_decide_eq_true kept
  exact ⟨filled, real, PosixPath.not_mem_of_mem_splitOn split⟩

/-- The parts of the text of parts. -/
theorem parts_asPosix {names : List PyText} (all : ∀ part ∈ names, IsPart part) :
    parts (asPosix names) = names := by
  by_cases none : names = []
  · subst none
    rfl
  · rw [asPosix, if_neg none, parts,
      List.splitOn_intercalate slash (fun part among => (all part among).2.2) none]
    exact List.filter_eq_self.mpr fun part among =>
      decide_eq_true ⟨(all part among).1, (all part among).2.1⟩

/-- The parts before a slash and those after it. -/
theorem parts_append_slash (before after : PyText) :
    parts (before ++ slash :: after) = parts before ++ parts after := by
  rw [parts, List.splitOn_append_cons_self, List.filter_append]
  rfl

/-- A letter of joined pieces is the separator or in one of the pieces. -/
theorem exists_piece_of_mem {pieces : List PyText} {separator point : CodePoint}
    (among : point ∈ [separator].intercalate pieces) :
    point = separator ∨ ∃ piece ∈ pieces, point ∈ piece := by
  induction pieces with
  | nil => cases among
  | cons piece pieces ih =>
      cases pieces with
      | nil =>
          rw [List.intercalate_singleton] at among
          exact .inr ⟨piece, List.mem_cons_self, among⟩
      | cons next rest =>
          rw [List.intercalate_cons_cons] at among
          rcases List.mem_append.mp among with first | later
          · rcases List.mem_append.mp first with here | between
            · exact .inr ⟨piece, List.mem_cons_self, here⟩
            · exact .inl (List.mem_singleton.mp between)
          · rcases ih later with same | ⟨part, found, inside⟩
            · exact .inl same
            · exact .inr ⟨part, List.mem_cons_of_mem _ found, inside⟩

/-- A letter of a path is a slash, a dot, or in one of its parts. -/
theorem exists_part_of_mem {text : PyText} {point : CodePoint} (among : point ∈ text)
    (noSlash : point ≠ slash) (noDot : point ≠ dot) : ∃ part ∈ parts text, point ∈ part := by
  have whole : [slash].intercalate (text.splitOn slash) = text := List.intercalate_splitOn slash
  rw [← whole] at among
  obtain ⟨part, split, inside⟩ := (exists_piece_of_mem among).resolve_left noSlash
  refine ⟨part, List.mem_filter.mpr ⟨split, decide_eq_true ⟨?_, ?_⟩⟩, inside⟩
  · exact List.ne_nil_of_mem inside
  · rintro rfl
    exact noDot (List.mem_singleton.mp inside)

/-- A letter of the text of parts is in one of them, when it is no slash and no dot. -/
theorem exists_part_of_mem_asPosix {names : List PyText} {point : CodePoint}
    (among : point ∈ asPosix names) (noSlash : point ≠ slash) (noDot : point ≠ dot) :
    ∃ part ∈ names, point ∈ part := by
  rw [asPosix] at among
  split at among
  · exact absurd (List.mem_singleton.mp among) noDot
  · exact (exists_piece_of_mem among).resolve_left noSlash

end Orchestrator.Foundation.PathParts
