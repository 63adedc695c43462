import Orchestrator.Foundation.JsonCutLine
import Orchestrator.Store.Jsonl

/-! # What a file of records reads back

Records whose texts stay on their line are read back as they were written. One that holds a
character that ends a line is cut there, and the file is not read at all.
-/

namespace Orchestrator.Store

open Orchestrator.Foundation PyText

/-- A document that is an object, its numbers numbers and its keys distinct. -/
structure Row where
  members : List (PyText × Json)
  numbers : (Json.object members).numeric = true
  distinct : (Json.object members).distinctKeys = true

def Row.document (row : Row) : Json := .object row.members

theorem Row.nodup_keys (row : Row) : (row.members.map Prod.fst).Nodup := by
  have distinct := row.distinct
  rw [Json.distinctKeys, Bool.and_eq_true, decide_eq_true_eq] at distinct
  exact distinct.1

/-- A row with its members in order. -/
def Row.sorted (row : Row) : Row where
  members := (Json.sortMembers row.members).insertionSort Json.keyLe
  numbers := by
    have kept := Json.numeric_sortKeys (.object row.members)
    rw [Json.sortKeys, row.numbers] at kept
    exact kept
  distinct := by
    have kept := Json.distinctKeys_sortKeys (.object row.members)
    rw [Json.sortKeys, row.distinct] at kept
    exact kept

theorem Row.sorted_document (row : Row) : row.sorted.document = row.document.sortKeys := by
  rw [document, document, Json.sortKeys]
  rfl

/-! ## The text of a file -/

/-- The text of a file of documents. -/
def linesText (documents : List Json) : PyText := documents.flatMap recordLine

theorem linesText_cons (document : Json) (documents : List Json) :
    linesText (document :: documents) = document.line ++ 10 :: linesText documents := by
  rw [linesText, List.flatMap_cons, recordLine, List.append_assoc, List.singleton_append, linesText]

theorem linesText_append (documents more : List Json) :
    linesText (documents ++ more) = linesText documents ++ linesText more :=
  List.flatMap_append

/-- A document that is written on a line: an object with numbers. -/
structure Written (document : Json) : Prop where
  numbers : document.numeric = true
  braces : ∃ middle, document.line = ofChar '\x7b' :: (middle ++ [ofChar '\x7d'])

theorem Row.written (row : Row) : Written row.document.sortKeys where
  numbers := (Json.numeric_sortKeys _).trans row.numbers
  braces := by
    rw [document, Json.sortKeys]
    exact Json.exists_line_object _

section Lines

variable {documents : List Json} (written : ∀ document ∈ documents, Written document)
include written

/-- A file has no carriage return. -/
theorem ne_return_of_mem_linesText {point : CodePoint} (among : point ∈ linesText documents) :
    point.val ≠ 13 := by
  obtain ⟨document, listed, within⟩ := List.mem_flatMap.mp among
  rcases List.mem_append.mp within with inside | last
  · have least := Json.le_of_mem_line (written document listed).numbers inside
    omega
  · rw [List.mem_singleton.mp last]
    decide

/-- The lines of a file of bytes. -/
theorem lines_linesText {bytes : List UInt8}
    (encoded : encodeUtf8 (linesText documents) = some bytes) :
    RecordFile.lines (some bytes) = some (splitLines (linesText documents)) := by
  have decoded := decodeUtf8_of_encodeUtf8 encoded
  rw [RecordFile.lines, decoded, Option.map_some,
    universalNewlines_eq fun _ among => ne_return_of_mem_linesText written among]

/-- A line of an object is stripped to itself, and is not blank. -/
theorem strip_line {document : Json} (listed : document ∈ documents) :
    strip document.line = document.line ∧ document.line ≠ [] := by
  obtain ⟨-, middle, shape⟩ := written document listed
  rw [shape]
  exact ⟨strip_eq_self (by decide) (by decide) middle, List.cons_ne_nil _ _⟩

/-- The first line of an object, stripped. -/
theorem strip_cut {document : Json} (listed : document ∈ documents) :
    strip (document.line.takeWhile fun point => !isLineEnd point) =
        Json.cutLine true document.line ∧
      strip (document.line.takeWhile fun point => !isLineEnd point) ≠ [] := by
  obtain ⟨-, middle, shape⟩ := written document listed
  have brace : isSpace (ofChar '\x7b') = false := by decide
  have begins : (document.line.takeWhile fun point => !isLineEnd point) =
      ofChar '\x7b' ::
        (middle ++ [ofChar '\x7d']).takeWhile fun point => !isLineEnd point := by
    rw [shape, List.takeWhile_cons, if_pos (by decide)]
  have stripped : strip (document.line.takeWhile fun point => !isLineEnd point) =
      Json.cutLine true document.line := by
    rw [Json.cutLine_true, strip, begins, List.dropWhile_cons, brace, if_neg Bool.false_ne_true]
  refine ⟨stripped, ?_⟩
  rw [stripped, shape]
  exact Json.cutLine_ne_nil brace _

/-- What is read from the lines that are not blank, by a reader that cleans each: the documents, or
nothing where one of them has an end of a line in a text. -/
theorem mapM_loads_linesText {clean : PyText → PyText} {trims : Bool}
    (keeps : ∀ document ∈ documents, clean document.line = document.line)
    (cuts : ∀ document ∈ documents,
      clean (document.line.takeWhile fun point => !isLineEnd point) =
        Json.cutLine trims document.line) :
    (((splitLines (linesText documents)).filter fun line => strip line ≠ []).map clean).mapM
        Json.loads =
      if documents.all (Json.allTexts Json.onOneLine) then some documents else none := by
  induction documents with
  | nil => rfl
  | cons document documents ih =>
      have here : document ∈ document :: documents := List.mem_cons_self
      have later := ih (fun other among => written other (List.mem_cons_of_mem _ among))
        (fun other among => keeps other (List.mem_cons_of_mem _ among))
        fun other among => cuts other (List.mem_cons_of_mem _ among)
      have numbers := (written document here).numbers
      have ends := Json.noEnd_line numbers
      rw [linesText_cons, List.all_cons]
      cases single : document.allTexts Json.onOneLine with
      | true =>
          obtain ⟨same, nonempty⟩ := strip_line written here
          have solid : decide (strip document.line ≠ []) = true := by
            rw [same]
            exact decide_eq_true nonempty
          rw [single] at ends
          rw [splitLines_append ends (by decide) (by decide), List.filter_cons, if_pos solid,
            List.map_cons, List.mapM_cons, keeps document here, Json.loads_line numbers, later,
            Bool.true_and]
          cases documents.all (Json.allTexts Json.onOneLine) with
          | true => rfl
          | false => rfl
      | false =>
          have noReturn : ∀ point ∈ document.line, point.val ≠ 13 := fun point among => by
            have least := Json.le_of_mem_line numbers among
            omega
          obtain ⟨more, split⟩ := splitLines_broken noReturn (ends.trans single)
            (10 :: linesText documents)
          have solid := decide_eq_true (strip_cut written here).2
          rw [split, List.filter_cons, if_pos solid, List.map_cons, List.mapM_cons,
            cuts document here, Json.loads_cutLine trims numbers single]
          rfl

/-- A file has an encoding when the texts of its documents have one. -/
theorem encodable_linesText :
    encodable (linesText documents) = documents.all (Json.allTexts encodable) := by
  induction documents with
  | nil => rfl
  | cons document documents ih =>
      have others := ih fun other among => written other (List.mem_cons_of_mem _ among)
      have feed : encodable (10 :: linesText documents) = encodable (linesText documents) := rfl
      rw [linesText_cons, encodable_append, feed, others, List.all_cons,
        Json.encodable_line (written document List.mem_cons_self).numbers]

end Lines

/-! ## Runs of writes -/

/-- The bytes of a file are those of documents, or there are none of either. -/
def Holds (file : RecordFile) (documents : List Json) : Prop :=
  match file with
  | none => documents = []
  | some bytes => encodeUtf8 (linesText documents) = some bytes

theorem encodeUtf8_append {first second : PyText} {front back : List UInt8}
    (left : encodeUtf8 first = some front) (right : encodeUtf8 second = some back) :
    encodeUtf8 (first ++ second) = some (front ++ back) := by
  unfold encodeUtf8 at left right ⊢
  split at left
  · rename_i firstFine
    split at right
    · rename_i secondFine
      cases left
      cases right
      rw [encodable_append, firstFine, secondFine, List.flatMap_append]
      rfl
    · cases right
  · cases left

theorem encodeUtf8_eq_none {text : PyText} (lone : encodable text = false) :
    encodeUtf8 text = none := by
  rw [encodeUtf8, lone]
  rfl

theorem exists_encodeUtf8 {text : PyText} (fine : encodable text = true) :
    ∃ bytes, encodeUtf8 text = some bytes := by
  rw [encodeUtf8, fine]
  exact ⟨_, rfl⟩

/-- A write of lines at the end of a file. -/
theorem write_of_holds {file : RecordFile} {documents more : List Json}
    (holds : Holds file documents) (fine : encodable (linesText more) = true) :
    ∃ next, file.write (linesText more) = some next ∧ Holds next (documents ++ more) := by
  obtain ⟨bytes, encoded⟩ := exists_encodeUtf8 fine
  refine ⟨some (file.getD [] ++ bytes), by rw [RecordFile.write, encoded, Option.map_some], ?_⟩
  rw [Holds, linesText_append]
  cases file with
  | none =>
      rw [show documents = [] from holds]
      exact encoded
  | some before => exact encodeUtf8_append holds encoded

theorem write_eq_none {file : RecordFile} {text : PyText} (lone : encodable text = false) :
    file.write text = none := by
  rw [RecordFile.write, encodeUtf8_eq_none lone, Option.map_none]

theorem linesText_singleton (document : Json) : linesText [document] = recordLine document :=
  List.append_nil _

/-- The lines of a file of documents. -/
theorem lines_of_holds {file : RecordFile} {documents : List Json} (holds : Holds file documents)
    (written : ∀ document ∈ documents, Written document) :
    file.lines = some (splitLines (linesText documents)) := by
  cases file with
  | none =>
      rw [show documents = [] from holds]
      rfl
  | some bytes => exact lines_linesText written holds

/-! ## The memory files -/

/-- A write of a memory file. -/
inductive RowWrite where
  | append (row : Row)
  | rewrite (rows : List Row)

namespace RowWrite

/-- The rows that a write puts into the file. -/
def rows : RowWrite → List Row
  | append row => [row]
  | rewrite rows => rows

def run (file : RecordFile) : RowWrite → Option RecordFile
  | append row => appendJsonl file row.document
  | rewrite rows => atomicWriteJsonl (rows.map Row.document)

/-- The rows that a file should hold after a write. -/
def after (held : List Row) : RowWrite → List Row
  | append row => held ++ [row]
  | rewrite rows => rows

end RowWrite

/-- The documents of rows, as they are written. -/
def sortedRows (rows : List Row) : List Json := rows.map fun row => row.document.sortKeys

theorem written_sortedRows (rows : List Row) : ∀ document ∈ sortedRows rows, Written document := by
  intro document among
  obtain ⟨row, -, rfl⟩ := List.mem_map.mp among
  exact row.written

theorem encodable_sortedRows (rows : List Row) :
    encodable (linesText (sortedRows rows)) =
      rows.all fun row => row.document.allTexts encodable := by
  rw [encodable_linesText (written_sortedRows rows), sortedRows, List.all_map]
  exact congrArg rows.all (funext fun row => Json.allTexts_sortKeys encodable row.document)

/-- A write of rows with an encoding. -/
theorem run_of_holds {file : RecordFile} {held : List Row} (holds : Holds file (sortedRows held))
    (write : RowWrite)
    (fine : (write.rows.all fun row => row.document.allTexts encodable) = true) :
    ∃ next, write.run file = some next ∧ Holds next (sortedRows (write.after held)) := by
  rw [← encodable_sortedRows] at fine
  cases write with
  | append row =>
      obtain ⟨next, wrote, kept⟩ := write_of_holds holds fine
      refine ⟨next, ?_, ?_⟩
      · rw [RowWrite.rows, sortedRows, List.map_singleton, linesText_singleton] at wrote
        exact wrote
      · rw [RowWrite.after, sortedRows, List.map_append]
        exact kept
  | rewrite rows =>
      have absent : Holds none [] := rfl
      obtain ⟨next, wrote, kept⟩ := write_of_holds absent fine
      refine ⟨next, ?_, kept⟩
      rw [RowWrite.run, atomicWriteJsonl, List.flatMap_map]
      rw [linesText, RowWrite.rows, sortedRows, List.flatMap_map] at wrote
      exact wrote

/-- A write of rows without an encoding fails. -/
theorem run_eq_none {file : RecordFile} {write : RowWrite}
    (lone : (write.rows.all fun row => row.document.allTexts encodable) = false) :
    write.run file = none := by
  rw [← encodable_sortedRows] at lone
  cases write with
  | append row =>
      rw [RowWrite.rows, sortedRows, List.map_singleton, linesText_singleton] at lone
      exact write_eq_none lone
  | rewrite rows =>
      rw [linesText, RowWrite.rows, sortedRows, List.flatMap_map] at lone
      rw [RowWrite.run, atomicWriteJsonl, List.flatMap_map]
      exact write_eq_none lone

/-- A file of rows after a run of writes. -/
def runWrites (file : RecordFile) (writes : List RowWrite) : Option RecordFile :=
  writes.foldlM RowWrite.run file

/-- A run of writes of rows with an encoding. -/
theorem runWrites_of_holds {file : RecordFile} {held : List Row}
    (holds : Holds file (sortedRows held)) (writes : List RowWrite)
    (fine : ∀ write ∈ writes, ∀ row ∈ write.rows, row.document.allTexts encodable = true) :
    ∃ next, runWrites file writes = some next ∧
      Holds next (sortedRows (writes.foldl RowWrite.after held)) := by
  induction writes generalizing file held with
  | nil => exact ⟨file, rfl, holds⟩
  | cons write writes ih =>
      rw [List.forall_mem_cons, ← List.all_eq_true] at fine
      obtain ⟨middle, wrote, kept⟩ := run_of_holds holds write fine.1
      obtain ⟨next, ran, last⟩ := ih kept fine.2
      refine ⟨next, ?_, last⟩
      rw [runWrites, List.foldlM_cons, wrote]
      exact ran

/-- A run of writes that did not fail wrote rows with an encoding. -/
theorem encodable_of_runWrites {file next : RecordFile} {writes : List RowWrite}
    (ran : runWrites file writes = some next) :
    ∀ write ∈ writes, ∀ row ∈ write.rows, row.document.allTexts encodable = true := by
  induction writes generalizing file with
  | nil => exact List.forall_mem_nil _
  | cons write writes ih =>
      rw [runWrites, List.foldlM_cons, Option.bind_eq_bind, Option.bind_eq_some_iff] at ran
      obtain ⟨middle, wrote, later⟩ := ran
      rw [List.forall_mem_cons]
      refine ⟨fun row among => ?_, ih later⟩
      cases fine : write.rows.all fun row => row.document.allTexts encodable with
      | true => exact List.all_eq_true.mp fine row among
      | false =>
          rw [run_eq_none fine] at wrote
          cases wrote

/-- Whether a record has no text with an end of a line in it. -/
def LedgerRecord.onOneLine (record : LedgerRecord) : Bool := record.toJson.allTexts Json.onOneLine

/-- Whether a row has no text with an end of a line in it. -/
def Row.onOneLine (row : Row) : Bool := row.document.allTexts Json.onOneLine

/-- A memory file reads back, up to the order of their keys, the rows that were written last. -/
def RowsReadBack (writes : List RowWrite) : Prop :=
  ∃ file, runWrites none writes = some file ∧ ∃ back, readJsonl file = some back ∧
    List.Forall₂ Json.Same back ((writes.foldl RowWrite.after []).map Row.document)

/-- What is read from a file of rows. -/
theorem readJsonl_of_holds {file : RecordFile} {held : List Row}
    (holds : Holds file (sortedRows held)) :
    readJsonl file = if held.all Row.onOneLine then some (sortedRows held) else none := by
  have written := written_sortedRows held
  have single : (sortedRows held).all (Json.allTexts Json.onOneLine) = held.all Row.onOneLine := by
    rw [sortedRows, List.all_map]
    exact congrArg held.all (funext fun row => Json.allTexts_sortKeys _ row.document)
  have read := mapM_loads_linesText written (fun _ listed => (strip_line written listed).1)
    fun _ listed => (strip_cut written listed).1
  rw [readJsonl, lines_of_holds holds written, Option.bind_eq_bind, Option.bind_some,
    List.filter_map, ← single]
  exact read

theorem same_sortedRows (held : List Row) :
    List.Forall₂ Json.Same (sortedRows held) (held.map Row.document) := by
  rw [sortedRows, List.forall₂_map_left_iff, List.forall₂_map_right_iff, List.forall₂_same]
  exact fun row _ => Json.same_sortKeys row.document

/-- The rows of a memory file are read back exactly when their texts have an encoding and those of
the rows that were written last stay on their line. -/
theorem rowsReadBack_iff (writes : List RowWrite) :
    RowsReadBack writes ↔
      (∀ write ∈ writes, ∀ row ∈ write.rows, row.document.allTexts encodable = true) ∧
        ∀ row ∈ writes.foldl RowWrite.after [], row.onOneLine = true := by
  have absent : Holds none (sortedRows []) := rfl
  constructor
  · rintro ⟨file, ran, back, read, -⟩
    have fine := encodable_of_runWrites ran
    obtain ⟨next, again, holds⟩ := runWrites_of_holds absent writes fine
    rw [ran] at again
    cases again
    rw [readJsonl_of_holds holds] at read
    split at read
    · rename_i single
      exact ⟨fine, List.all_eq_true.mp single⟩
    · cases read
  · rintro ⟨fine, single⟩
    obtain ⟨next, ran, holds⟩ := runWrites_of_holds absent writes fine
    refine ⟨next, ran, _, ?_, same_sortedRows _⟩
    rw [readJsonl_of_holds holds, if_pos (List.all_eq_true.mpr single)]

/-! ## The ledger -/

namespace LedgerFile

theorem encodable_optionalText (value : Option String) :
    (optionalText value).allTexts encodable = true := by
  cases value with
  | none => rfl
  | some text => exact encodable_ofString text

theorem encodable_optionalNumber (value : Option Nat) :
    (optionalNumber value).allTexts encodable = true := by
  cases value with
  | none => rfl
  | some number => rfl

theorem numeric_optionalNumber (value : Option Nat) : (optionalNumber value).numeric = true := by
  cases value with
  | none => rfl
  | some number => exact Json.isNumber_of_isNatural (Json.isNatural_naturalLiteral number)

theorem numeric_optionalText (value : Option String) : (optionalText value).numeric = true := by
  cases value with
  | none => rfl
  | some text => rfl

/-- A record is written on a line. -/
theorem written_toJson (record : LedgerRecord) : Written record.toJson where
  numbers := by
    have natural : ∀ number, Json.isNumber (Json.naturalLiteral number) = true := fun number =>
      Json.isNumber_of_isNatural (Json.isNatural_naturalLiteral number)
    have paths : Json.numericItems (record.governanceChanged.map fun path =>
        .string (ofString path)) = true := by
      rw [Json.numericItems_eq_all, List.all_map]
      exact List.all_eq_true.mpr fun _ _ => rfl
    simp only [LedgerRecord.toJson, Json.numeric, Json.numericMembers, numeric_optionalText,
      numeric_optionalNumber, natural, paths, Bool.and_self]
  braces := Json.exists_line_object _

/-- A record has an encoding. -/
theorem encodable_toJson (record : LedgerRecord) :
    record.toJson.allTexts encodable = true := by
  have paths : Json.allTextsItems encodable (record.governanceChanged.map fun path =>
      .string (ofString path)) = true := by
    have texts : (record.governanceChanged.map fun path => Json.string (ofString path)) =
        (record.governanceChanged.map ofString).map Json.string := List.map_map.symm
    rw [texts, Json.allTextsItems_map_string, List.all_map]
    exact List.all_eq_true.mpr fun path _ => encodable_ofString path
  simp only [LedgerRecord.toJson, Json.allTexts, Json.allTextsMembers, encodable_ofString,
    encodable_optionalText, encodable_optionalNumber, paths, Bool.and_self]

/-- Records are appended to a file of records. -/
theorem append_of_holds {file : RecordFile} {held : List LedgerRecord}
    (holds : Holds file (held.map LedgerRecord.toJson)) (appended : List LedgerRecord) :
    ∃ next, appended.foldlM append file = some next ∧
      Holds next ((held ++ appended).map LedgerRecord.toJson) := by
  induction appended generalizing file held with
  | nil => exact ⟨file, rfl, by rwa [List.append_nil]⟩
  | cons record appended ih =>
      have fine : encodable (linesText [record.toJson]) = true := by
        rw [encodable_linesText (List.forall_mem_singleton.mpr (written_toJson record)),
          List.all_cons, encodable_toJson, List.all_nil, Bool.and_self]
      obtain ⟨middle, wrote, kept⟩ := write_of_holds holds fine
      have holdsNext : Holds middle ((held ++ [record]).map LedgerRecord.toJson) := by
        rw [List.map_append]
        exact kept
      obtain ⟨next, ran, last⟩ := ih holdsNext
      rw [List.append_assoc, List.singleton_append] at last
      rw [linesText_singleton] at wrote
      refine ⟨next, ?_, last⟩
      rw [List.foldlM_cons, append, wrote]
      exact ran

/-- What is read from a ledger. -/
theorem records_of_holds {file : RecordFile} {held : List LedgerRecord}
    (holds : Holds file (held.map LedgerRecord.toJson)) :
    records file = if held.all LedgerRecord.onOneLine then some (held.map LedgerRecord.toJson)
      else none := by
  have written : ∀ document ∈ held.map LedgerRecord.toJson, Written document :=
    List.forall_mem_map.mpr fun record _ => written_toJson record
  have single : (held.map LedgerRecord.toJson).all (Json.allTexts Json.onOneLine) =
      held.all LedgerRecord.onOneLine := List.all_map
  have read := @mapM_loads_linesText _ written id false (fun _ _ => rfl)
    fun document _ => (Json.cutLine_false document.line).symm
  rw [List.map_id, single] at read
  rw [records, lines_of_holds holds written, Option.bind_eq_bind, Option.bind_some]
  exact read

/-- The ledger gives the records back that were appended, in their order. -/
def ReadsBack (appended : List LedgerRecord) : Prop :=
  ∃ file, appended.foldlM append none = some file ∧
    records file = some (appended.map LedgerRecord.toJson)

/-- The records of a ledger are read back exactly when their texts stay on their line. -/
theorem readsBack_iff (appended : List LedgerRecord) :
    ReadsBack appended ↔ ∀ record ∈ appended, record.onOneLine = true := by
  have absent : Holds none (List.map LedgerRecord.toJson []) := rfl
  obtain ⟨file, ran, holds⟩ := append_of_holds absent appended
  rw [List.nil_append] at holds
  have read := records_of_holds holds
  constructor
  · rintro ⟨next, again, back⟩
    rw [ran] at again
    cases again
    rw [read] at back
    split at back
    · rename_i single
      exact List.all_eq_true.mp single
    · cases back
  · intro single
    rw [if_pos (List.all_eq_true.mpr single)] at read
    exact ⟨file, ran, read⟩

end LedgerFile

/-- A title with a line separator. -/
def separatedTitle : LedgerRecord where
  id := "42"
  title := "one\u2028two"
  finalStatus := Flow.Status.done.value
  finishedAt := "2026-01-01T00:00:00"

end Orchestrator.Store
