import Mathlib.Algebra.BigOperators.Group.List.Basic
import Mathlib.Algebra.Ring.Nat
import Mathlib.Data.List.Dedup
import Orchestrator.Foundation.JsonRoundTrip

/-! # What an overview accounts for

Every file of a section is listed on a line of its own or counted in the closing line, within the
caps, and the header has the totals of all of them.
-/

/-! ## The overview of a change

One line for each file that a diff touched, under a header with the totals. A section lists its
files as long as they fit both of its caps, and then counts the others.
-/

namespace Orchestrator.Git

open Orchestrator.Foundation
open Orchestrator.Foundation.PyText (ofString encodeUtf8 encodable utf8Bytes)

/-! ## Entries -/

/-- How a file changed. -/
inductive EntryKind where
  | A
  | M
  | D
  | R
  deriving DecidableEq

def EntryKind.letter : EntryKind → PyText
  | .A => ofString "A"
  | .M => ofString "M"
  | .D => ofString "D"
  | .R => ofString "R"

/-- One file that a diff touched. -/
structure DiffEntry where
  path : PyText
  kind : EntryKind
  added : Nat
  removed : Nat
  previousPath : Option PyText := none
  deriving DecidableEq

/-- One scope of a change. -/
structure OverviewSection where
  title : PyText
  baseSha : PyText
  entries : List DiffEntry
  denied : List PyText := []

def maxListedPaths : Nat := 200

def maxSectionBytes : Nat := 16 * 1024

/-- `total_counts`. -/
def totalCounts (entries : List DiffEntry) : Nat × Nat :=
  ((entries.map DiffEntry.added).sum, (entries.map DiffEntry.removed).sum)

/-! ## Lines -/

/-- `_C_ESCAPES`: each letter and the character that it stands for. -/
def cEscapes : List (CodePoint × CodePoint) :=
  [(97, 7), (98, 8), (116, 9), (110, 10), (118, 11), (102, 12), (114, 13), (34, 34), (92, 92)]

/-- `_C_QUOTED`. -/
def cQuoted (point : CodePoint) : Option PyText :=
  (cEscapes.find? fun escape => escape.2 = point).map fun escape => [92, escape.1]

/-- `_is_control`. -/
def isControl (point : CodePoint) : Bool := point.val < 32 || point.val = 127

/-- An octal digit. -/
def octalDigit (number : Nat) : CodePoint := PyText.ofChar (Nat.digitChar (number % 8))

/-- A backslash and the three octal digits of a byte. -/
def octalEscape (number : Nat) : PyText :=
  [92, octalDigit (number / 64), octalDigit (number / 8), octalDigit number]

/-- A character of a quoted path. -/
def quotedPoint (point : CodePoint) : PyText :=
  (cQuoted point).getD (if isControl point then octalEscape point.val else [point])

/-- `_display`. -/
def display (path : PyText) : PyText :=
  if path.any isControl then 34 :: path.flatMap quotedPoint ++ [34] else path

/-- `_entry_line`. -/
def entryLine (denied : List PyText) (entry : DiffEntry) : PyText :=
  let name := match entry.previousPath with
    | some previous => display previous ++ ofString " → " ++ display entry.path
    | none => display entry.path
  entry.kind.letter ++ ofString "  " ++ name ++ ofString "  +" ++ Json.naturalLiteral entry.added ++
    ofString "  −" ++ Json.naturalLiteral entry.removed ++
    if entry.path ∈ denied ∨ ∃ previous ∈ entry.previousPath, previous ∈ denied
      then ofString "  [denied]" else []

/-- `_count_files`. -/
def countFiles (count : Nat) : PyText :=
  Json.naturalLiteral count ++ if count = 1 then ofString " file" else ofString " files"

/-- A quotient rounded to the nearest number, and from the middle to the even one. -/
def roundHalfEven (number unit : Nat) : Nat :=
  if 2 * (number % unit) < unit ∨ 2 * (number % unit) = unit ∧ number / unit % 2 = 0
    then number / unit
  else number / unit + 1

/-- `_format_size`, for the sizes whose quotients are exact. -/
def formatSize (size : Nat) : PyText :=
  if size < 1024 then Json.naturalLiteral size ++ ofString " B"
  else if size < 1024 * 1024 then Json.naturalLiteral (roundHalfEven size 1024) ++ ofString " KB"
  else
    let tenths := roundHalfEven (size * 10) (1024 * 1024)
    Json.naturalLiteral (tenths / 10) ++ ofString "." ++ Json.naturalLiteral (tenths % 10) ++
      ofString " MB"

/-! ## Sections -/

/-- The lines that fit, after those that are listed. A line that cannot be encoded fails. -/
def listedLines (denied : List PyText) : Nat → Nat → List DiffEntry → Option (List PyText)
  | _, _, [] => some []
  | listed, listedBytes, entry :: rest =>
      (encodeUtf8 (entryLine denied entry)).bind fun encoded =>
        let size := encoded.length + 1
        if listed = maxListedPaths ∨ maxSectionBytes < listedBytes + size then some []
        else (listedLines denied (listed + 1) (listedBytes + size) rest).map
          (entryLine denied entry :: ·)

/-- The first line of a section. -/
def sectionHeader (title baseSha : PyText) (files : Nat) (counts : Nat × Nat)
    (diffSize : Option Nat) : PyText :=
  title ++ ofString " " ++ baseSha ++ ofString " — " ++ countFiles files ++ ofString ", +" ++
    Json.naturalLiteral counts.1 ++ ofString " −" ++ Json.naturalLiteral counts.2 ++
    match diffSize with
    | some size => ofString ", full diff " ++ formatSize size
    | none => []

/-- The line that counts what is not listed. -/
def restLine (rest : List DiffEntry) : List PyText :=
  if rest.isEmpty then []
  else [ofString "… and " ++ Json.naturalLiteral rest.length ++ ofString " more paths (+" ++
    Json.naturalLiteral (totalCounts rest).1 ++ ofString " −" ++
    Json.naturalLiteral (totalCounts rest).2 ++ ofString ") not listed"]

/-- `_render_section`. -/
def renderSection (shown : OverviewSection) (diffSize : Option Nat) : Option PyText :=
  let files := (shown.entries.map DiffEntry.path).dedup.length
  let header := sectionHeader shown.title shown.baseSha files (totalCounts shown.entries) diffSize
  (listedLines shown.denied 0 0 shown.entries).map fun lines =>
    [10].intercalate (header :: [] :: lines ++ restLine (shown.entries.drop lines.length)) ++ [10]

/-- The sections one after another; the first names the size of the diff. -/
def renderSections : Option Nat → List OverviewSection → Option (List PyText)
  | _, [] => some []
  | diffSize, shown :: rest =>
      (renderSection shown diffSize).bind fun text =>
        (renderSections none rest).map (text :: ·)

/-- `render_overview`. -/
def renderOverview (sections : List OverviewSection) (diffSize : Nat) : Option PyText :=
  (renderSections (some diffSize) sections).map [10].intercalate

open Orchestrator.Foundation
open Orchestrator.Foundation.PyText (ofString encodeUtf8 encodable utf8Bytes)

/-! ## What an overview accounts for -/

/-- The bytes of a listed line, with its end. -/
def lineBytes (denied : List PyText) (entry : DiffEntry) : Nat :=
  ((entryLine denied entry).flatMap utf8Bytes).length + 1

/-- A section's text accounts for its entries: those listed, and the rest. -/
structure Accounts (shown : OverviewSection) (diffSize : Option Nat) (text : PyText)
    (listed rest : List DiffEntry) : Prop where
  split : listed ++ rest = shown.entries
  text_eq : text = [10].intercalate (sectionHeader shown.title shown.baseSha
      (shown.entries.map DiffEntry.path).dedup.length (totalCounts shown.entries) diffSize ::
    [] :: listed.map (entryLine shown.denied) ++ restLine rest) ++ [10]
  oneLine : ∀ entry ∈ listed, 10 ∉ entryLine shown.denied entry
  paths : listed.length ≤ maxListedPaths
  bytes : (listed.map (lineBytes shown.denied)).sum ≤ maxSectionBytes
  stops : ∀ entry after, rest = entry :: after → listed.length = maxListedPaths ∨
    maxSectionBytes < (listed.map (lineBytes shown.denied)).sum + lineBytes shown.denied entry

/-! ## Lines -/

/-- A character that is no control character, and can be encoded. -/
def writable (point : CodePoint) : Bool := !isControl point && !PyText.isSurrogate point

theorem writable_of_isDigit {point : CodePoint} (digit : Json.isDigit point = true) :
    writable point = true := by
  simp only [Json.isDigit, Bool.and_eq_true, decide_eq_true_eq] at digit
  simp only [writable, isControl, PyText.isSurrogate, Bool.and_eq_true, Bool.not_eq_true',
    Bool.or_eq_false_iff, Bool.and_eq_false_iff, decide_eq_false_iff_not]
  omega

theorem writable_naturalLiteral (number : Nat) :
    ∀ point ∈ Json.naturalLiteral number, writable point = true := by
  intro point among
  have natural := Json.isNatural_naturalLiteral number
  rw [Json.isNatural, Bool.and_eq_true, List.all_eq_true] at natural
  exact writable_of_isDigit (natural.1 point among)

theorem writable_octalDigit (number : Nat) : writable (octalDigit number) = true := by
  have digits : ∀ digit < 8, (Nat.digitChar digit).isDigit = true := by decide
  apply writable_of_isDigit
  exact Json.isDigit_ofChar (digits _ (Nat.mod_lt _ (by decide)))

/-- A quoted character is written with plain ones, or as it is when it is no control character. -/
theorem mem_quotedPoint {point other : CodePoint} (among : other ∈ quotedPoint point) :
    writable other = true ∨ other = point ∧ isControl point = false := by
  rw [quotedPoint, cQuoted] at among
  cases found : cEscapes.find? fun escape => escape.2 = point with
  | some escape =>
      have letters : ∀ escape ∈ cEscapes, writable escape.1 = true :=
        List.all_eq_true.mp (by decide : cEscapes.all (fun escape => writable escape.1) = true)
      rw [found, Option.map_some, Option.getD_some, List.mem_cons, List.mem_singleton] at among
      rcases among with rfl | rfl
      · exact .inl rfl
      · exact .inl (letters escape (List.mem_of_find?_eq_some found))
  | none =>
      rw [found, Option.map_none, Option.getD_none] at among
      split at among
      · simp only [octalEscape, List.mem_cons, List.not_mem_nil, or_false] at among
        rcases among with rfl | rfl | rfl | rfl
        · exact .inl rfl
        · exact .inl (writable_octalDigit _)
        · exact .inl (writable_octalDigit _)
        · exact .inl (writable_octalDigit _)
      · next control =>
        exact .inr ⟨List.mem_singleton.mp among, Bool.eq_false_iff.mpr control⟩

/-- A displayed path has no control character. -/
theorem mem_display {path : PyText} {point : CodePoint} (among : point ∈ display path) :
    writable point = true ∨ point ∈ path ∧ isControl point = false := by
  rw [display] at among
  split at among
  · rw [List.cons_append, List.mem_cons, List.mem_append, List.mem_singleton] at among
    rcases among with rfl | inside | rfl
    · exact .inl rfl
    · obtain ⟨other, listed, inside⟩ := List.mem_flatMap.mp inside
      refine (mem_quotedPoint inside).imp_right ?_
      rintro ⟨rfl, plain⟩
      exact ⟨listed, plain⟩
    · exact .inl rfl
  · next control =>
    refine .inr ⟨among, Bool.eq_false_iff.mpr fun bad => control ?_⟩
    exact List.any_eq_true.mpr ⟨point, among, bad⟩

/-- The paths of an entry. -/
def DiffEntry.paths (entry : DiffEntry) : List PyText := entry.previousPath.toList ++ [entry.path]

/-- A line has no control character. -/
theorem mem_entryLine {denied : List PyText} {entry : DiffEntry} {point : CodePoint}
    (among : point ∈ entryLine denied entry) :
    writable point = true ∨ ∃ path ∈ entry.paths, point ∈ path ∧ isControl point = false := by
  have known (text : String) (plain : (ofString text).all writable = true)
      (inside : point ∈ ofString text) : writable point = true :=
    List.all_eq_true.mp plain point inside
  have ofPath {path : PyText} (listed : path ∈ entry.paths) (inside : point ∈ display path) :
      writable point = true ∨ ∃ path ∈ entry.paths, point ∈ path ∧ isControl point = false :=
    (mem_display inside).imp_right fun found => ⟨path, listed, found⟩
  have named : entry.path ∈ entry.paths := List.mem_append_right _ (List.mem_singleton.mpr rfl)
  rw [entryLine] at among
  simp only [List.mem_append] at among
  rcases among with ((((((kind | gap) | name) | plus) | added) | minus) | removed) | mark
  · left
    cases letter : entry.kind with
    | A =>
        rw [letter] at kind
        exact known "A" rfl kind
    | M =>
        rw [letter] at kind
        exact known "M" rfl kind
    | D =>
        rw [letter] at kind
        exact known "D" rfl kind
    | R =>
        rw [letter] at kind
        exact known "R" rfl kind
  · exact .inl (known "  " rfl gap)
  · cases before : entry.previousPath with
    | none =>
        rw [before] at name
        exact ofPath named name
    | some previous =>
        rw [before] at name
        simp only [List.mem_append] at name
        rcases name with (old | arrow) | new
        · refine ofPath (List.mem_append_left _ ?_) old
          rw [before]
          exact List.mem_singleton.mpr rfl
        · exact .inl (known " → " rfl arrow)
        · exact ofPath named new
  · exact .inl (known "  +" rfl plus)
  · exact .inl (writable_naturalLiteral _ point added)
  · exact .inl (known "  −" rfl minus)
  · exact .inl (writable_naturalLiteral _ point removed)
  · split at mark
    · exact .inl (known "  [denied]" rfl mark)
    · cases mark

/-- A line is one line. -/
theorem newline_notMem_entryLine (denied : List PyText) (entry : DiffEntry) :
    10 ∉ entryLine denied entry := by
  intro among
  rcases mem_entryLine among with plain | ⟨path, -, -, plain⟩
  · exact Bool.false_ne_true plain
  · exact Bool.false_ne_true plain.symm

/-- The line of an entry with encodable paths is encodable. -/
theorem encodable_entryLine {denied : List PyText} {entry : DiffEntry}
    (plain : ∀ path ∈ entry.paths, encodable path = true) :
    encodable (entryLine denied entry) = true := by
  rw [encodable, List.all_eq_true]
  intro point among
  rcases mem_entryLine among with good | ⟨path, listed, inside, -⟩
  · rw [writable, Bool.and_eq_true] at good
    exact good.2
  · exact List.all_eq_true.mp (plain path listed) point inside

/-! ## Listing -/

variable {denied : List PyText}

/-- What is listed after some lines is a start of the entries, within the caps. -/
theorem listedLines_eq_some {listed listedBytes : Nat} {entries : List DiffEntry}
    {lines : List PyText} (count : listed ≤ maxListedPaths) (within : listedBytes ≤ maxSectionBytes)
    (done : listedLines denied listed listedBytes entries = some lines) :
    ∃ front rest, front ++ rest = entries ∧ lines = front.map (entryLine denied) ∧
      listed + front.length ≤ maxListedPaths ∧
      listedBytes + (front.map (lineBytes denied)).sum ≤ maxSectionBytes ∧
      ∀ entry after, rest = entry :: after → listed + front.length = maxListedPaths ∨
        maxSectionBytes <
          listedBytes + (front.map (lineBytes denied)).sum + lineBytes denied entry := by
  induction entries generalizing listed listedBytes lines with
  | nil =>
      cases done
      exact ⟨[], [], rfl, rfl, count, within, fun _ _ none => by cases none⟩
  | cons entry rest ih =>
      rw [listedLines] at done
      obtain ⟨encoded, made, done⟩ := Option.bind_eq_some_iff.mp done
      have size : encoded.length + 1 = lineBytes denied entry := by
        rw [encodeUtf8] at made
        split at made
        · cases made
          rfl
        · cases made
      rw [size] at done
      dsimp only at done
      split at done
      · next full =>
        cases done
        refine ⟨[], entry :: rest, rfl, rfl, count, within, fun first after same => ?_⟩
        cases same
        exact full
      · next fits =>
        rw [not_or, Nat.not_lt] at fits
        obtain ⟨others, found, rfl⟩ := Option.map_eq_some_iff.mp done
        have next : listed + 1 ≤ maxListedPaths := Nat.lt_of_le_of_ne count fits.1
        obtain ⟨front, last, rfl, rfl, paths, bytes, stops⟩ := ih next fits.2 found
        refine ⟨entry :: front, last, rfl, rfl, ?_, ?_, fun first after same => ?_⟩
        · rw [List.length_cons]
          omega
        · rw [List.map_cons, List.sum_cons]
          omega
        · rw [List.length_cons, List.map_cons, List.sum_cons]
          have stop := stops first after same
          omega

/-- Lines that can be encoded are listed, as many as fit. -/
theorem listedLines_isSome {entries : List DiffEntry}
    (plain : ∀ entry ∈ entries, ∀ path ∈ entry.paths, encodable path = true)
    (listed listedBytes : Nat) : (listedLines denied listed listedBytes entries).isSome := by
  induction entries generalizing listed listedBytes with
  | nil => rfl
  | cons entry rest ih =>
      obtain ⟨here, others⟩ := List.forall_mem_cons.mp plain
      rw [listedLines, encodeUtf8, if_pos (encodable_entryLine here), Option.bind_some]
      dsimp only
      split
      · rfl
      · rw [Option.isSome_map]
        exact ih others _ _

/-! ## Sections -/

/-- A section that is rendered accounts for its entries. -/
theorem accounts_of_renderSection {shown : OverviewSection} {diffSize : Option Nat} {text : PyText}
    (rendered : renderSection shown diffSize = some text) :
    ∃ listed rest, Accounts shown diffSize text listed rest := by
  obtain ⟨lines, found, rfl⟩ := Option.map_eq_some_iff.mp rendered
  obtain ⟨listed, rest, split, rfl, paths, bytes, stops⟩ :=
    listedLines_eq_some (Nat.zero_le _) (Nat.zero_le _) found
  simp only [Nat.zero_add] at paths bytes stops
  have dropped : shown.entries.drop (listed.map (entryLine shown.denied)).length = rest := by
    rw [List.length_map, ← split, List.drop_left]
  refine ⟨listed, rest, split, ?_, ?_, paths, bytes, stops⟩
  · rw [dropped]
  · exact fun entry _ => newline_notMem_entryLine shown.denied entry

/-- Every section of an overview accounts for its entries; the first names the diff's size. -/
inductive SectionsAccount : Option Nat → List OverviewSection → List PyText → Prop where
  | nil (diffSize : Option Nat) : SectionsAccount diffSize [] []
  | cons {diffSize : Option Nat} {shown : OverviewSection} {text : PyText}
      {others : List OverviewSection} {texts : List PyText} {listed rest : List DiffEntry}
      (accounts : Accounts shown diffSize text listed rest)
      (after : SectionsAccount none others texts) :
      SectionsAccount diffSize (shown :: others) (text :: texts)

theorem sectionsAccount_of_renderSections {diffSize : Option Nat} {sections : List OverviewSection}
    {texts : List PyText} (rendered : renderSections diffSize sections = some texts) :
    SectionsAccount diffSize sections texts := by
  induction sections generalizing diffSize texts with
  | nil =>
      cases rendered
      exact .nil diffSize
  | cons shown others ih =>
      obtain ⟨text, first, later⟩ := Option.bind_eq_some_iff.mp rendered
      obtain ⟨after, found, rfl⟩ := Option.map_eq_some_iff.mp later
      obtain ⟨listed, rest, accounts⟩ := accounts_of_renderSection first
      exact .cons accounts (ih found)

theorem renderSections_isSome {sections : List OverviewSection}
    (plain : ∀ shown ∈ sections, ∀ entry ∈ shown.entries, ∀ path ∈ entry.paths,
      encodable path = true) (diffSize : Option Nat) :
    (renderSections diffSize sections).isSome := by
  induction sections generalizing diffSize with
  | nil => rfl
  | cons shown others ih =>
      obtain ⟨here, later⟩ := List.forall_mem_cons.mp plain
      obtain ⟨lines, found⟩ := Option.isSome_iff_exists.mp (listedLines_isSome here 0 0)
      obtain ⟨texts, rendered⟩ := Option.isSome_iff_exists.mp (ih later none)
      rw [renderSections, renderSection, found, rendered]
      rfl

/-- What the overview of sections promises. -/
structure OverviewHolds (sections : List OverviewSection) (diffSize : Nat) : Prop where
  accounts : ∀ text, renderOverview sections diffSize = some text →
    ∃ texts, text = [10].intercalate texts ∧ SectionsAccount (some diffSize) sections texts
  rendered : (∀ shown ∈ sections, ∀ entry ∈ shown.entries, ∀ path ∈ entry.paths,
    encodable path = true) → (renderOverview sections diffSize).isSome

/-- An overview accounts for every entry of its sections. -/
theorem overviewHolds (sections : List OverviewSection) (diffSize : Nat) :
    OverviewHolds sections diffSize where
  accounts text rendered := by
    obtain ⟨texts, found, rfl⟩ := Option.map_eq_some_iff.mp rendered
    exact ⟨texts, rfl, sectionsAccount_of_renderSections found⟩
  rendered plain := by
    rw [renderOverview, Option.isSome_map]
    exact renderSections_isSome plain (some diffSize)

/-! ## The size of the whole text -/

/-- An entry whose line fills a section. -/
def fullEntry : DiffEntry where
  path := List.replicate 16370 97
  kind := .M
  added := 0
  removed := 0

def fullSection : OverviewSection where
  title := ofString "Change since the task base"
  baseSha := ofString "3f9c2a7"
  entries := [fullEntry]

theorem flatMap_replicate (count : Nat) :
    ((List.replicate count (97 : CodePoint)).flatMap utf8Bytes).length = count := by
  induction count with
  | zero => rfl
  | succ count ih =>
      rw [List.replicate_succ, List.flatMap_cons, List.length_append, ih]
      exact Nat.add_comm 1 count

/-- A modified file with no counts, shown as it is. -/
theorem entryLine_plain {path : PyText} (plain : path.any isControl = false) :
    entryLine [] { path := path, kind := .M, added := 0, removed := 0 } =
      ofString "M  " ++ path ++ ofString "  +0  −0" := by
  have unmarked : ¬ (path ∈ ([] : List PyText) ∨ ∃ previous ∈ (none : Option PyText),
      previous ∈ ([] : List PyText)) := by
    rintro (none | ⟨previous, none, -⟩)
    · cases none
    · cases none
  have front : ofString "M  " = ofString "M" ++ ofString "  " := rfl
  have back : ofString "  +0  −0" = ofString "  +" ++ Json.naturalLiteral 0 ++ ofString "  −" ++
      Json.naturalLiteral 0 := rfl
  rw [entryLine]
  dsimp only
  rw [if_neg unmarked, display, plain, if_neg Bool.false_ne_true, List.append_nil, front, back,
    EntryKind.letter]
  simp only [List.append_assoc]

theorem lineBytes_fullEntry : lineBytes [] fullEntry = maxSectionBytes := by
  have plain : (List.replicate 16370 (97 : CodePoint)).any isControl = false := by
    rw [List.any_replicate]
    rfl
  have front : ((ofString "M  ").flatMap utf8Bytes).length = 3 := by decide
  have back : ((ofString "  +0  −0").flatMap utf8Bytes).length = 10 := by decide
  rw [lineBytes, fullEntry, entryLine_plain plain, List.flatMap_append, List.flatMap_append,
    List.length_append, List.length_append, flatMap_replicate, front, back]
  rfl

/-- The section lists its entry. -/
theorem listed_fullSection {diffSize : Option Nat} {text : PyText} {listed rest : List DiffEntry}
    (accounts : Accounts fullSection diffSize text listed rest) :
    listed = [fullEntry] ∧ rest = [] := by
  have split : listed ++ rest = [fullEntry] := accounts.split
  rcases List.append_eq_singleton_iff.mp split with ⟨rfl, rfl⟩ | both
  · rcases accounts.stops fullEntry [] rfl with many | more
    · cases many
    · have bytes : lineBytes fullSection.denied fullEntry = maxSectionBytes := lineBytes_fullEntry
      rw [List.map_nil, List.sum_nil, bytes] at more
      omega
  · exact both

/-- The text of a section is longer than its only line. -/
theorem lineBytes_lt_of_single {shown : OverviewSection} {diffSize : Option Nat} {text : PyText}
    {entry : DiffEntry} (accounts : Accounts shown diffSize text [entry] []) :
    lineBytes shown.denied entry < (text.flatMap utf8Bytes).length := by
  have lines (header line : PyText) : [10].intercalate (header :: [] :: [line] ++ restLine []) =
      header ++ [10] ++ [10] ++ line := by
    rw [restLine, if_pos List.isEmpty_nil, List.append_nil, List.intercalate_cons_cons,
      List.intercalate_cons_cons, List.intercalate_singleton, List.nil_append, List.append_assoc]
    rw [List.append_assoc, List.append_assoc]
  have newline : (([10] : PyText).flatMap utf8Bytes).length = 1 := rfl
  rw [accounts.text_eq, List.map_cons, List.map_nil, lines, lineBytes]
  simp only [List.flatMap_append, List.length_append, newline]
  omega

/-- The listed line fills its cap, and the text of its section is longer. -/
theorem fullSection_exceeds : ∃ text, renderOverview [fullSection] 0 = some text ∧
    maxSectionBytes < (text.flatMap utf8Bytes).length := by
  have encodes : encodable (List.replicate 16370 (97 : CodePoint)) = true := by
    rw [encodable, List.all_replicate]
    rfl
  have plain : ∀ shown ∈ [fullSection], ∀ entry ∈ shown.entries, ∀ path ∈ entry.paths,
      encodable path = true := by
    intro shown single entry among path listed
    cases List.mem_singleton.mp single
    cases List.mem_singleton.mp among
    cases List.mem_singleton.mp listed
    exact encodes
  obtain ⟨texts, rendered⟩ := Option.isSome_iff_exists.mp (renderSections_isSome plain (some 0))
  refine ⟨[10].intercalate texts, by rw [renderOverview, rendered]; rfl, ?_⟩
  cases sectionsAccount_of_renderSections rendered with
  | @cons _ _ text _ after listed rest accounts last =>
      cases last
      obtain ⟨rfl, rfl⟩ := listed_fullSection accounts
      have bytes : lineBytes fullSection.denied fullEntry = maxSectionBytes := lineBytes_fullEntry
      rw [List.intercalate_singleton, ← bytes]
      exact lineBytes_lt_of_single accounts

end Orchestrator.Git
