import Orchestrator.Foundation.LineWindows
import Orchestrator.Foundation.Utf8Replace
import Orchestrator.Providers.ClaudeStream

/-! # Citations

Each entry of a manifest is checked against the file it cites. The cited line is a line of
`str.splitlines`, which ends lines at more than newlines, so a file with another end in it has more
lines than an editor shows.
-/

namespace Orchestrator.Flow

open Orchestrator.Foundation
open Orchestrator.Foundation.PyText (ofString ofChar splitLines universalNewlines strip contains
  isSpace isLineEnd decodeReplacing window lineCount newlinesOnly StartsOn joinLines)
open Orchestrator.Providers (Rendering integerOf)

/-! ## The check -/

/-- `CitationStatus`. -/
inductive CitationStatus where
  | verified
  | weak
  | broken
  | uncheckable
  deriving DecidableEq

/-- One classified citation. -/
structure CitationEntry where
  sourceId : PyText
  status : CitationStatus
  reason : PyText
  path : Option PyText := none
  line : Option Int := none

/-- Whether the manifest was read. -/
inductive ManifestStatus where
  | ok
  | missing
  | malformed

/-- `CitationReport`. -/
structure CitationReport where
  passed : Bool
  entries : List CitationEntry
  manifestStatus : ManifestStatus

/-- What Python shows of values: `str`, and `repr` of a text. -/
structure CitationTexts where
  render : Rendering
  repr : PyText → PyText

/-- The files below a repository: which paths stay within it, which name a file, and the bytes of a
file, or the text of an `OSError`. -/
structure RepositoryFiles where
  within : PyText → Bool
  isFile : PyText → Bool
  read : PyText → Except PyText (List UInt8)

/-- What `path.is_file()` and `json.loads` make of the manifest. -/
inductive ManifestFile where
  | missing
  | malformed (error : PyText)
  | parsed (document : Json)

/-- The text of a file, as `read_text` reads it. -/
def fileText (bytes : List UInt8) : PyText := universalNewlines (decodeReplacing bytes)

/-- The integer under `line`; a truth value is one. -/
def citedLine (source : Json) : Option Int :=
  match source.get? "line" with
  | some (.number literal) => integerOf literal
  | some (.bool value) => some (if value then 1 else 0)
  | _ => none

def integerText (number : Int) : PyText :=
  if number < 0 then ofChar '-' :: Json.naturalLiteral number.natAbs
  else Json.naturalLiteral number.natAbs

/-- The first line whose window holds a part. -/
def foundAt (lines : List PyText) (needle : PyText) : Option Nat :=
  (List.range' 1 lines.length).find? fun line =>
    contains (window lines (line - 1) (needle.count 10 + 1)) needle

/-- The status and the reason of a snippet in a file, cited at a line or not. -/
def classifyText (texts : CitationTexts) (path text : PyText) (line : Option Int)
    (snippet : Option PyText) : CitationStatus × PyText :=
  let lines := splitLines text
  let shown := texts.repr path
  match line.filter fun number => number < 1 ∨ (lines.length : Int) < number with
  | some number =>
    (.broken, ofString "line " ++ integerText number ++ ofString " out of range in " ++
      shown)
  | none =>
      match (snippet.map strip).filter fun needle => needle ≠ [] with
      | none => (.uncheckable, ofString "no 'snippet' to verify the cited location")
      | some needle =>
          let found := foundAt lines needle
          if found = none ∧ contains text needle = false then
            (.broken, ofString "snippet not found in " ++ shown)
          else
            match line with
            | none => (.verified, ofString "snippet present in the cited file (no line cited)")
            | some number =>
                if contains (window lines (number - 1).toNat (needle.count 10 + 1)) needle then
                  (.verified, ofString "snippet present at the cited line")
                else
                  (.weak, ofString "snippet found " ++
                    (match found with
                    | some place => ofString "at line " ++ Json.naturalLiteral place
                    | none => ofString "elsewhere") ++
                    ofString " in " ++ shown ++ ofString ", not at line " ++ integerText number)

/-- The identifier of an entry, or its place. -/
def sourceIdOf (texts : CitationTexts) (source : Json) (index : Nat) : PyText :=
  if texts.render.truth (source.get? "id") then texts.render.text (source.get? "id")
  else ofChar '#' :: Json.naturalLiteral index

/-- `_classify`. -/
def classify (texts : CitationTexts) (files : RepositoryFiles) (source : Json) (index : Nat) :
    CitationEntry :=
  match source with
  | .object members =>
      let source := Json.object members
      let sourceId := sourceIdOf texts source index
      match source.get? "path" with
      | some (.string (first :: rest)) =>
          let path := first :: rest
          let line := citedLine source
          let here (verdict : CitationStatus × PyText) : CitationEntry :=
            { sourceId := sourceId, status := verdict.1, reason := verdict.2, path := some path
              line := line }
          if files.within path = false then
            here (.broken, ofString "path escapes repo: " ++ texts.repr path)
          else if files.isFile path = false then
            here (.broken, ofString "no such file: " ++ texts.repr path)
          else
            match files.read path with
            | .error error =>
                here (.uncheckable,
                ofString "could not read " ++ texts.repr path ++ ofString ": " ++
                  error)
            | .ok bytes =>
                here (classifyText texts path (fileText bytes) line
                  (match source.get? "snippet" with
                  | some (.string snippet) => some snippet
                  | _ => none))
      | _ =>
          match source.get? "url" with
          | some (.string _) =>
              { sourceId := sourceId, status := .uncheckable
                reason := ofString "external url (not fetched)" }
          | _ =>
              { sourceId := sourceId, status := .uncheckable
                reason := ofString "no 'path' to validate" }
  | _ =>
      { sourceId := ofChar '#' :: Json.naturalLiteral index, status := .uncheckable
        reason := ofString "entry is not a mapping" }

/-- The report about a manifest that has no entries. -/
def manifestReport (reason : PyText) (status : ManifestStatus) : CitationReport where
  passed := true
  entries := [{ sourceId := ofString "<manifest>", status := .uncheckable, reason := reason }]
  manifestStatus := status

/-- `validate_citations`, of a manifest with a name. -/
def validateCitations (texts : CitationTexts) (files : RepositoryFiles) (name : PyText)
    (manifest : ManifestFile) : CitationReport :=
  match manifest with
  | .missing => manifestReport (name ++ ofString " missing") .missing
  | .malformed error =>
      manifestReport (ofString "malformed " ++ name ++ ofString ": " ++ error) .malformed
  | .parsed document =>
      match document.get? "sources" with
      | some (.array sources) =>
          let entries := sources.mapIdx fun index source => classify texts files source index
          { passed := !entries.any fun entry => entry.status = .broken
            entries := entries
            manifestStatus := .ok }
      | _ => manifestReport (name ++ ofString " has no 'sources' list") .malformed

/-! ## What a citation deserves -/

/-- A line number that the text has. -/
def InRange (text : PyText) (line : Option Int) : Prop :=
  ∀ number, line = some number → 1 ≤ number ∧ number ≤ lineCount text

/-- What a quote of a text deserves, by the lines between its newlines. -/
def Deserves (text : PyText) (line : Option Int) (quote : PyText) : CitationStatus → Prop
  | .broken => ¬ InRange text line ∨ ¬ quote <:+: text
  | .verified => InRange text line ∧ quote <:+: text ∧
      ∀ number, line = some number → StartsOn text quote (number - 1).toNat
  | .weak => InRange text line ∧ quote <:+: text ∧
      ∃ number, line = some number ∧ ¬ StartsOn text quote (number - 1).toNat
  | .uncheckable => False

/-- What a citation of a path deserves. -/
def DeservesIn (files : RepositoryFiles) (path : PyText) (line : Option Int) (quote : PyText)
    (status : CitationStatus) : Prop :=
  if files.within path = true ∧ files.isFile path = true then
    ∃ bytes, files.read path = .ok bytes ∧ Deserves (fileText bytes) line quote status
  else status = .broken

/-- A path is read, or it is known not to name a file of the repository. -/
def Settled (files : RepositoryFiles) (path : PyText) : Prop :=
  files.within path = true → files.isFile path = true → ∃ bytes, files.read path = .ok bytes

/-- Citations are classified as they deserve, and a manifest passes exactly when none is broken. -/
structure CitationLaw (texts : CitationTexts) (files : RepositoryFiles) : Prop where
  classified : ∀ members index path snippet,
    (Json.object members).get? "path" = some (.string path) → path ≠ [] → Settled files path →
    (Json.object members).get? "snippet" = some (.string snippet) →
    (∃ point ∈ snippet, isSpace point = false) →
    ∀ status, (classify texts files (.object members) index).status = status ↔
      DeservesIn files path (citedLine (.object members)) (strip snippet) status
  passes : ∀ name manifest, (validateCitations texts files name manifest).passed = true ↔
    ∀ entry ∈ (validateCitations texts files name manifest).entries, entry.status ≠ .broken

/-! ## One text -/

section Texts

variable {text path quote needle : PyText} {line : Option Int}

/-- A citation deserves one status. -/
theorem Deserves.unique {first second : CitationStatus} (one : Deserves text line quote first)
    (other : Deserves text line quote second) : first = second := by
  have broken : ∀ {status : CitationStatus}, Deserves text line quote status →
      Deserves text line quote .broken → status = .broken := by
    intro status deserved failed
    cases status with
    | broken => rfl
    | verified => exact absurd failed (not_or.mpr ⟨not_not_intro deserved.1,
        not_not_intro deserved.2.1⟩)
    | weak => exact absurd failed (not_or.mpr ⟨not_not_intro deserved.1,
        not_not_intro deserved.2.1⟩)
    | uncheckable => exact absurd deserved id
  have apart : Deserves text line quote .verified → ¬ Deserves text line quote .weak := by
    rintro ⟨-, -, starts⟩ ⟨-, -, number, cited, elsewhere⟩
    exact elsewhere (starts number cited)
  cases first with
  | broken => exact (broken other one).symm
  | verified =>
      cases second with
      | verified => rfl
      | broken => exact broken one other
      | weak => exact absurd other (apart one)
      | uncheckable => exact absurd other id
  | weak =>
      cases second with
      | weak => rfl
      | broken => exact broken one other
      | verified => exact absurd one (apart other)
      | uncheckable => exact absurd other id
  | uncheckable => exact absurd one id

/-- The verdict on a text is broken, or the lines say whether the part starts where it is cited. -/
theorem classifyText_status (texts : CitationTexts) (path : PyText) (filled : strip quote ≠ []) :
    (classifyText texts path text line (some quote)).1 =
      if ∃ number, line = some number ∧
        (number < 1 ∨ ((splitLines text).length : Int) < number) then
        .broken
      else if foundAt (splitLines text) (strip quote) = none ∧
        contains text (strip quote) = false then
        .broken
      else if ∀ number, line = some number → contains (window (splitLines text) (number - 1).toNat
          ((strip quote).count 10 + 1)) (strip quote) = true then .verified
      else .weak := by
  have needle : ((some quote).map strip).filter (fun needle => decide (needle ≠ [])) =
      some (strip quote) := by
    rw [Option.map_some, Option.filter_some, decide_eq_true filled, if_pos rfl]
  unfold classifyText
  dsimp only
  rw [needle]
  cases line with
  | none =>
      rw [Option.filter_none, if_neg]
      · dsimp only
        split
        · rfl
        · exact (if_pos fun number none => by cases none).symm
      · rintro ⟨number, none, -⟩
        cases none
  | some number =>
      rw [Option.filter_some]
      by_cases outside : number < 1 ∨ ((splitLines text).length : Int) < number
      · rw [decide_eq_true outside, if_pos rfl, if_pos ⟨number, rfl, outside⟩]
      · rw [decide_eq_false outside, if_neg Bool.false_ne_true, if_neg]
        · dsimp only
          split
          · rfl
          · split
            · rename_i inside
              rw [if_pos]
              intro other same
              rw [← Option.some.inj same]
              exact inside
            · rename_i elsewhere
              rw [if_neg fun inside => elsewhere (inside number rfl)]
        · rintro ⟨other, same, wrong⟩
          rw [← Option.some.inj same] at wrong
          exact outside wrong

/-- The last character of a stripped text is not blank. -/
theorem getLast_strip {point : CodePoint} (last : (strip quote).getLast? = some point) :
    isSpace point = false := by
  rw [strip, List.getLast?_reverse] at last
  have filled : (quote.dropWhile isSpace).reverse.dropWhile isSpace ≠ [] := by
    intro none
    rw [none] at last
    cases last
  have solid := List.head_dropWhile_not isSpace filled
  rw [List.head?_eq_some_head filled] at last
  rw [← Option.some.inj last]
  exact solid

/-- A stripped text is a part of it. -/
theorem isInfix_strip (quote : PyText) : strip quote <:+: quote := by
  have back := List.dropWhile_suffix (l := (quote.dropWhile isSpace).reverse) isSpace
  have front := (List.reverse_prefix.mpr back)
  rw [List.reverse_reverse] at front
  exact front.isInfix.trans (List.dropWhile_suffix isSpace).isInfix

/-- A window that holds a part is found. -/
theorem foundAt_ne_none {lines : List PyText} (found : foundAt lines needle ≠ none) :
    ∃ index, contains (window lines index (needle.count 10 + 1)) needle = true := by
  obtain ⟨place, here⟩ := Option.ne_none_iff_exists'.mp found
  rw [foundAt] at here
  have holds := List.find?_some here
  exact ⟨place - 1, holds⟩

/-- A window of a text's lines is a part of them joined. -/
theorem isInfix_window (lines : List PyText) (index span : Nat) :
    window lines index span <:+: joinLines lines := by
  refine (PyText.joinLines_take_prefix _ _).isInfix.trans ?_
  induction index generalizing lines with
  | zero => exact List.infix_rfl
  | succ index ih =>
      cases lines with
      | nil => exact List.infix_rfl
      | cons line rest =>
          rw [List.drop_succ_cons]
          refine (ih rest).trans ?_
          cases rest with
          | nil => exact (List.nil_prefix).isInfix
          | cons next more =>
              rw [PyText.joinLines_cons_cons]
              exact (List.suffix_append _ _).isInfix

/-- With no other end of a line than newlines, a citation is classified as it deserves. -/
theorem deserves_classifyText (texts : CitationTexts) (path : PyText)
    (noReturn : ∀ point ∈ text, point.val ≠ 13) (only : newlinesOnly text = true)
    (filled : strip quote ≠ []) :
    Deserves text line (strip quote) (classifyText texts path text line (some quote)).1 := by
  obtain ⟨tail, lined⟩ := PyText.lined_splitLines noReturn only
  have solid : ∀ point, (strip quote).getLast? = some point → isLineEnd point = false := by
    intro point last
    cases ends : isLineEnd point with
    | false => rfl
    | true =>
        have space := PyText.isSpace_of_isLineEnd ends
        rw [getLast_strip last] at space
        cases space
  have joined : joinLines (splitLines text) <:+: text := by
    conv_rhs => rw [lined.whole]
    exact (List.prefix_append _ _).isInfix
  rw [classifyText_status texts path filled, lined.count]
  split
  · rename_i outside
    obtain ⟨number, cited, wrong⟩ := outside
    refine .inl fun inside => ?_
    have range := inside number cited
    omega
  · rename_i outside
    have inside : InRange text line := by
      intro number cited
      by_contra wrong
      exact outside ⟨number, cited, by omega⟩
    split
    · rename_i absent
      refine .inr fun occurs => ?_
      rw [(PyText.contains_iff text (strip quote)).mpr occurs] at absent
      cases absent.2
    · rename_i present
      have occurs : strip quote <:+: text := by
        by_contra none
        refine present ⟨?_, Bool.eq_false_iff.mpr fun found =>
          none ((PyText.contains_iff _ _).mp found)⟩
        by_contra found
        obtain ⟨index, here⟩ := foundAt_ne_none found
        exact none (((PyText.contains_iff _ _).mp here).trans
          ((isInfix_window _ _ _).trans joined))
      have starts : ∀ number, line = some number →
          (contains (window (splitLines text) (number - 1).toNat ((strip quote).count 10 + 1))
            (strip quote) = true ↔ StartsOn text (strip quote) (number - 1).toNat) := by
        intro number cited
        obtain ⟨least, most⟩ := inside number cited
        have within : (number - 1).toNat < (splitLines text).length := by
          rw [lined.count]
          omega
        rw [lined.startsOn_iff filled solid, PyText.startsOn_iff_window lined.plain within,
          PyText.contains_iff]
      split
      · rename_i verified
        exact ⟨inside, occurs, fun number cited =>
          (starts number cited).mp (verified number cited)⟩
      · rename_i elsewhere
        simp only [not_forall] at elsewhere
        obtain ⟨number, cited, wrong⟩ := elsewhere
        exact ⟨inside, occurs, number, cited, fun right => wrong ((starts number cited).mpr right)⟩

/-- A quote that is not blank does not occur in a blank text, however its lines are made. -/
theorem classifyText_blank (texts : CitationTexts) (path : PyText)
    (blank : text.all isSpace = true) (filled : strip quote ≠ []) :
    (classifyText texts path text line (some quote)).1 = .broken ∧ ¬ strip quote <:+: text := by
  have among := List.getLast_mem filled
  have solid := getLast_strip (List.getLast?_eq_getLast_of_ne_nil filled)
  generalize (strip quote).getLast filled = point at among solid
  have absent : point ∉ text := by
    intro inside
    rw [List.all_eq_true.mp blank point inside] at solid
    cases solid
  have none : ¬ strip quote <:+: text := fun occurs => absent (occurs.subset among)
  refine ⟨?_, none⟩
  rw [classifyText_status texts path filled]
  split
  · rfl
  · refine if_pos ⟨?_, Bool.eq_false_iff.mpr fun found => none ((PyText.contains_iff _ _).mp found)⟩
    by_contra found
    obtain ⟨index, here⟩ := foundAt_ne_none found
    have inside := (((PyText.contains_iff _ _).mp here).trans (isInfix_window _ _ _)).subset among
    rcases PathParts.exists_piece_of_mem inside with newline | ⟨line, listed, within⟩
    · rw [newline] at solid
      cases solid
    · exact absent (PyText.mem_of_mem_splitLines listed within)

/-- A text with another end of a line is cited beyond its last line. -/
theorem classifyText_beyond (texts : CitationTexts) (path : PyText)
    (noReturn : ∀ point ∈ text, point.val ≠ 13) (only : newlinesOnly text = false)
    (filled : strip text ≠ []) :
    (classifyText texts path text (some (lineCount text + 1 : Nat)) (some text)).1 ≠ .broken ∧
      ¬ InRange text (some (lineCount text + 1 : Nat)) := by
  have more := (PyText.lineCount_le noReturn).2 only
  constructor
  · rw [classifyText_status texts path filled, if_neg, if_neg]
    · split <;> decide
    · rintro ⟨-, absent⟩
      rw [(PyText.contains_iff text (strip text)).mpr (isInfix_strip text)] at absent
      cases absent
    · rintro ⟨number, cited, wrong⟩
      rw [← Option.some.inj cited] at wrong
      omega
  · intro inside
    have range := inside _ rfl
    omega

end Texts

/-! ## Files and manifests -/

section Files

/-- Text mode leaves no carriage return. -/
theorem fileText_noReturn (bytes : List UInt8) : ∀ point ∈ fileText bytes, point.val ≠ 13 := by
  have kept : ∀ (text : PyText) (afterReturn : Bool),
      ∀ point ∈ PyText.newlinesFrom afterReturn text, point.val ≠ 13 := by
    intro text
    induction text with
    | nil => exact fun _ point none => absurd none List.not_mem_nil
    | cons first rest ih =>
        intro afterReturn point among
        rw [PyText.newlinesFrom] at among
        split at among
        · rcases List.mem_cons.mp among with rfl | later
          · decide
          · exact ih true point later
        · split at among
          · exact ih false point among
          · rcases List.mem_cons.mp among with rfl | later
            · assumption
            · exact ih false point later
  exact kept (decodeReplacing bytes) false

/-- The entry of a path with a snippet. -/
theorem classify_status (texts : CitationTexts) (files : RepositoryFiles)
    {members : List (PyText × Json)} {path snippet : PyText}
    (cited : (Json.object members).get? "path" = some (.string path)) (named : path ≠ [])
    (quoted : (Json.object members).get? "snippet" = some (.string snippet)) (index : Nat) :
    (classify texts files (.object members) index).status =
      if files.within path = true ∧ files.isFile path = true then
        match files.read path with
        | .error _ => .uncheckable
        | .ok bytes => (classifyText texts path (fileText bytes) (citedLine (.object members))
            (some snippet)).1
      else .broken := by
  obtain ⟨first, rest, rfl⟩ := List.exists_cons_of_ne_nil named
  unfold classify
  dsimp only
  rw [cited, quoted]
  dsimp only
  by_cases within : files.within (first :: rest) = true
  · rw [if_neg (by rw [within]; decide)]
    by_cases isFile : files.isFile (first :: rest) = true
    · rw [if_neg (by rw [isFile]; decide), if_pos ⟨within, isFile⟩]
      cases files.read (first :: rest) with
      | error error => rfl
      | ok bytes => rfl
    · rw [if_pos (Bool.eq_false_iff.mpr isFile), if_neg fun both => isFile both.2]
  · rw [if_pos (Bool.eq_false_iff.mpr within), if_neg fun both => within both.1]

/-- A manifest passes exactly when none of its entries is broken. -/
theorem validateCitations_passed (texts : CitationTexts) (files : RepositoryFiles) (name : PyText)
    (manifest : ManifestFile) : (validateCitations texts files name manifest).passed = true ↔
      ∀ entry ∈ (validateCitations texts files name manifest).entries, entry.status ≠ .broken := by
  have uncheckable : ∀ reason status, (manifestReport reason status).passed = true ↔
      ∀ entry ∈ (manifestReport reason status).entries, entry.status ≠ .broken := by
    intro reason status
    refine iff_of_true rfl fun entry among => ?_
    rw [List.mem_singleton.mp among]
    exact CitationStatus.noConfusion
  unfold validateCitations
  cases manifest with
  | missing => exact uncheckable _ _
  | malformed error => exact uncheckable _ _
  | parsed document =>
      dsimp only
      split
      · dsimp only
        rw [Bool.not_eq_true', List.any_eq_false]
        simp only [decide_eq_true_eq, ne_eq]
      · exact uncheckable _ _

/-- The number of a natural literal. -/
theorem integerOf_naturalLiteral (number : Nat) :
    integerOf (Json.naturalLiteral number) = some (number : Int) := by
  have digits : ∀ point ∈ Json.naturalLiteral number, Json.isDigit point = true := by
    have natural := Json.isNatural_naturalLiteral number
    rw [Json.isNatural, Bool.and_eq_true] at natural
    exact List.all_eq_true.mp natural.1
  have value : (Json.naturalLiteral number).foldl
      (fun total point => 10 * total + (point.val - 48)) 0 = number := by
    rw [Json.naturalLiteral, List.foldl_map]
    exact Nat.ofDigitChars_ten_toDigits
  cases whole : Json.naturalLiteral number with
  | nil =>
      rw [Json.naturalLiteral, List.map_eq_nil_iff] at whole
      exact absurd whole Nat.toDigits_ne_nil
  | cons point rest =>
      rw [whole] at digits value
      have plain : point ≠ ofChar '-' := by
        rintro rfl
        exact absurd (digits _ List.mem_cons_self) (by decide)
      unfold integerOf
      dsimp only
      rw [if_neg plain, if_pos ⟨List.cons_ne_nil _ _, List.all_eq_true.mpr digits⟩, value]

/-- One file with a form feed in its first line. -/
def formFeedFiles : RepositoryFiles where
  within _ := true
  isFile path := path = ofString "a.md"
  read _ := .ok [97, 12, 98, 10]

/-- What a check of identifiers shows. -/
def plainTexts : CitationTexts where
  render := { shown _ := [], isZero _ := false }
  repr path := path

/-- A citation of the second line of a file that has one. -/
def secondLine : List (PyText × Json) :=
  [(ofString "path", .string (ofString "a.md")), (ofString "line", .number (ofString "2")),
    (ofString "snippet", .string (ofString "b"))]

end Files

end Orchestrator.Flow
