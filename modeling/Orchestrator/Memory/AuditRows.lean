import Orchestrator.Security.Redaction
import Orchestrator.Store.JsonlReadBack

/-! # The rows of the audit log

A row that is recorded is a row of the file, with the hash of the row before it and its own, and the
check goes past it when it is read back.
-/

/-! ## The audit chain of the memory store

The audit log holds one row for each mutation. A row is redacted, carries the hash of the row before
it, and is hashed itself; the check goes through the rows that are read back and hashes each again.
-/

namespace Orchestrator.Memory

open Orchestrator.Foundation PyText Store

/-- A content hash, written as a hexadecimal digest. -/
structure ContentHash where
  digest : List UInt8 → PyText
  hex : ∀ data, digest data ⊆ Security.hexDigits
  nonempty : ∀ data, digest data ≠ []

namespace AuditLog

/-- Who performed a mutation. -/
inductive Actor where
  | finalizer
  | cleanup
  | operator

/-- What a mutation did. -/
inductive Action where
  | append
  | promote
  | merge
  | quarantine
  | prune
  | rollback

def Actor.value : Actor → String
  | finalizer => "finalizer"
  | cleanup => "cleanup"
  | operator => "operator"

def Action.value : Action → String
  | append => "append"
  | promote => "promote"
  | merge => "merge"
  | quarantine => "quarantine"
  | prune => "prune"
  | rollback => "rollback"

/-- The half of a row that the caller supplies. -/
structure AuditContext where
  timestamp : PyText
  actor : Actor := .finalizer
  rationale : PyText := []
  sourceArtifacts : List PyText := []
  taskId : PyText := []

/-- The arguments of `record`. -/
structure Mutation where
  action : Action
  affectedIds : List PyText
  preHash : Option PyText
  postHash : Option PyText
  context : AuditContext

def texts (values : List PyText) : Json := .array (values.map .string)

def optionalHash (hash : Option PyText) : Json := hash.elim .null .string

/-- The members of a row that come from its arguments. -/
def Mutation.fields (mutation : Mutation) : List (PyText × Json) :=
  [(ofString "task_id", .string mutation.context.taskId),
    (ofString "timestamp", .string mutation.context.timestamp),
    (ofString "actor", .string (ofString mutation.context.actor.value)),
    (ofString "action", .string (ofString mutation.action.value)),
    (ofString "source_artifacts", texts mutation.context.sourceArtifacts),
    (ofString "affected_ids", texts mutation.affectedIds),
    (ofString "pre_hash", optionalHash mutation.preHash),
    (ofString "post_hash", optionalHash mutation.postHash),
    (ofString "rationale", .string mutation.context.rationale)]

/-- `audit_{count:06d}`. -/
def rowId (count : Nat) : PyText :=
  let digits := Json.naturalLiteral count
  ofString "audit_" ++ (List.replicate (6 - digits.length) (ofChar '0') ++ digits)

def rowHashKey : PyText := ofString "row_hash"

def prevHashKey : PyText := ofString "prev_hash"

/-- `_canonical`. -/
def canonical (payload : Json) : Option (List UInt8) := encodeUtf8 payload.sortKeys.line

end AuditLog

/-- An audit log: what words are, the content hash, and the literal secrets. -/
structure AuditLog where
  words : Security.WordTest
  hash : ContentHash
  extraSecrets : List PyText

namespace AuditLog

variable (log : AuditLog)

/-- The redacted members of a row, before it is hashed. -/
def body (count : Nat) (prevHash : Json) (mutation : Mutation) : List (PyText × Json) :=
  Security.redactMembers log.words log.extraSecrets
    ((ofString "id", .string (rowId count)) :: (mutation.fields ++ [(prevHashKey, prevHash)]))

/-- The hash of the row before, of the rows that are there. -/
def lastHash (existing : List Json) : Option Json :=
  match existing.getLast? with
  | none => some (.string [])
  | some row => row.get? "row_hash"

/-- `record`: it appends one row to the file. -/
def record (file : RecordFile) (mutation : Mutation) : Option RecordFile := do
  let existing ← readJsonl file
  let prevHash ← lastHash existing
  let body := log.body existing.length prevHash mutation
  let bytes ← canonical (.object body)
  appendJsonl file (.object (body ++ [(rowHashKey, .string (log.hash.digest bytes))]))

/-- Whether a member is a text. -/
def isText (value : Option Json) (text : PyText) : Bool :=
  match value with
  | some (.string other) => other = text
  | _ => false

/-- The loop of `verify_chain` over the rows that were read, after a hash. -/
def verifyRows : PyText → List Json → Option Bool
  | _, [] => some true
  | prev, .object members :: rows =>
      if isText ((Json.object members).get? "prev_hash") prev then do
        let bytes ← canonical (.object (members.filter fun member => member.1 ≠ rowHashKey))
        if isText ((Json.object members).get? "row_hash") (log.hash.digest bytes) then
          verifyRows (log.hash.digest bytes) rows
        else return false
      else some false
  | _, _ :: _ => none

/-- `verify_chain`. -/
def verifyChain (file : RecordFile) : Option Bool := do log.verifyRows [] (← readJsonl file)

/-- A log from its start, after a sequence of records. -/
def recordAll (mutations : List Mutation) : Option RecordFile := mutations.foldlM log.record none

end AuditLog

end Orchestrator.Memory

namespace Orchestrator.Memory.AuditLog

open Orchestrator.Foundation PyText Store Security

/-! ## The rows of the audit log -/

/-- The bytes that a row is hashed from. -/
def bodyBytes (members : List (PyText × Json)) : List UInt8 :=
  (Json.object members).sortKeys.line.flatMap utf8Bytes

section Rows

variable (log : AuditLog) (count : Nat) (prev : PyText) (mutation : Mutation)

/-- The hash of a row. -/
def rowHash : PyText := log.hash.digest (bodyBytes (log.body count (.string prev) mutation))

def rowMembers : List (PyText × Json) :=
  log.body count (.string prev) mutation ++
    [(rowHashKey, .string (log.rowHash count prev mutation))]

/-- The keys of a row before its hash. -/
def bodyKeys : List PyText :=
  ["id", "task_id", "timestamp", "actor", "action", "source_artifacts", "affected_ids", "pre_hash",
    "post_hash", "rationale", "prev_hash"].map ofString

theorem map_fst_body : (log.body count (.string prev) mutation).map Prod.fst = bodyKeys := by
  rw [body, map_fst_redactMembers]
  rfl

theorem map_fst_rowMembers :
    (log.rowMembers count prev mutation).map Prod.fst = bodyKeys ++ [rowHashKey] := by
  rw [rowMembers, List.map_append, map_fst_body]
  rfl

theorem numeric_texts (values : List PyText) : (texts values).numeric = true := by
  rw [texts, Json.numeric, Json.numericItems_eq_all, List.all_map]
  exact List.all_eq_true.mpr fun _ _ => rfl

theorem distinctKeys_texts (values : List PyText) : (texts values).distinctKeys = true := by
  rw [texts, Json.distinctKeys]
  induction values with
  | nil => rfl
  | cons value values ih => exact ih

theorem plain_optionalHash (hash : Option PyText) :
    (optionalHash hash).numeric = true ∧ (optionalHash hash).distinctKeys = true := by
  cases hash with
  | none => exact ⟨rfl, rfl⟩
  | some text => exact ⟨rfl, rfl⟩

/-- A recorded row. -/
def rowOf : Row where
  members := log.rowMembers count prev mutation
  numbers := by
    have plain : Json.numericMembers ((ofString "id", .string (rowId count)) ::
        (mutation.fields ++ [(prevHashKey, .string prev)])) = true := by
      simp only [Mutation.fields, List.cons_append, List.nil_append, Json.numericMembers,
        Json.numeric, numeric_texts, plain_optionalHash, Bool.and_self]
    have kept := numeric_redactMembers log.words log.extraSecrets _ plain
    rw [Json.numericMembers_eq_all] at kept
    rw [Json.numeric, Json.numericMembers_eq_all, rowMembers, List.all_append, body, kept]
    rfl
  distinct := by
    have plain : Json.distinctMembers ((ofString "id", .string (rowId count)) ::
        (mutation.fields ++ [(prevHashKey, .string prev)])) = true := by
      simp only [Mutation.fields, List.cons_append, List.nil_append, Json.distinctMembers,
        Json.distinctKeys, distinctKeys_texts, plain_optionalHash, Bool.and_self]
    have kept := distinctKeys_redactMembers log.words log.extraSecrets _ plain
    have keys : (bodyKeys ++ [rowHashKey]).Nodup := by decide
    rw [Json.distinctMembers_eq_all] at kept
    rw [Json.distinctKeys, map_fst_rowMembers, decide_eq_true keys, Json.distinctMembers_eq_all,
      rowMembers, List.all_append, body, kept]
    rfl

end Rows

/-! ## The texts of a row -/

/-- The redacted members of a row that come from its arguments. -/
def redactedFields (log : AuditLog) (mutation : Mutation) : Json :=
  .object (redactMembers log.words log.extraSecrets mutation.fields)

/-- Whether a row can be written, and stays on its line. -/
def clean (log : AuditLog) (mutation : Mutation) : Bool :=
  (log.redactedFields mutation).allTexts encodable &&
    (log.redactedFields mutation).allTexts Json.onOneLine

section Texts

variable {log : AuditLog} {prev : PyText} (hex : prev ⊆ hexDigits) {test : CodePoint → Bool}
  (printable : ∀ point, Json.isPrintable point = true → test point = true)
include hex printable

/-- A test of characters that printable ones pass is decided by the arguments of a row. -/
theorem allTexts_body (count : Nat) (mutation : Mutation) :
    Json.allTextsMembers (·.all test) (log.body count (.string prev) mutation) =
      (log.redactedFields mutation).allTexts (·.all test) := by
  have mark : redacted.all test = true := Json.all_of_isPrintable printable (by decide)
  have digits : ∀ {text : PyText}, text ⊆ hexDigits → text.all test = true := by
    intro text within
    have all : hexDigits.all Json.isPrintable = true := by decide
    exact Json.all_of_isPrintable printable
      (List.all_eq_true.mpr fun point among => List.all_eq_true.mp all point (within among))
  have named : (rowId count).all test = true := by
    have natural := Json.isNatural_naturalLiteral count
    have literal := Json.all_of_isPrintable printable (Json.all_isNumber
      (Json.isNumber_of_isNatural natural))
    have zeros : (List.replicate (6 - (Json.naturalLiteral count).length) (ofChar '0')).all test =
        true := by
      refine List.all_eq_true.mpr fun point among => ?_
      rw [List.eq_of_mem_replicate among]
      exact printable _ (by decide)
    have word : (ofString "audit_").all test = true :=
      Json.all_of_isPrintable printable (by decide)
    rw [rowId, List.all_append, List.all_append, literal, zeros, word]
    rfl
  have keys : (bodyKeys.all fun key => key.all test) = true := by
    have all : (bodyKeys.all fun key => key.all Json.isPrintable) = true := by decide
    exact List.all_eq_true.mpr fun key listed =>
      Json.all_of_isPrintable printable (List.all_eq_true.mp all key listed)
  have plain : isSensitiveKey (ofString "id") = false ∧ isSensitiveKey prevHashKey = false := by
    decide
  have idKey : (ofString "id").all test = true :=
    List.all_eq_true.mp keys _ (by decide)
  have prevKey : prevHashKey.all test = true := List.all_eq_true.mp keys _ (by decide)
  rw [redactedFields, Json.allTexts, body, redactMembers_eq_map, redactMembers_eq_map,
    List.map_cons, List.map_append, Json.allTextsMembers_eq_all, Json.allTextsMembers_eq_all,
    List.all_cons, List.all_append]
  simp only [redactMember, plain.1, plain.2, if_neg Bool.false_ne_true, redactNode, Json.allTexts,
    List.map_cons, List.map_nil, List.all_cons, List.all_nil, idKey, prevKey,
    all_redactText log.words log.extraSecrets mark named,
    all_redactText log.words log.extraSecrets mark (digits hex), Bool.true_and, Bool.and_true,
    Bool.and_self]

theorem allTexts_rowOf (count : Nat) (mutation : Mutation) :
    (log.rowOf count prev mutation).document.allTexts (·.all test) =
      (log.redactedFields mutation).allTexts (·.all test) := by
  have hashed : (log.rowHash count prev mutation).all test = true := by
    have all : hexDigits.all Json.isPrintable = true := by decide
    exact Json.all_of_isPrintable printable (List.all_eq_true.mpr fun point among =>
      List.all_eq_true.mp all point (log.hash.hex _ among))
  have key : rowHashKey.all test = true := Json.all_of_isPrintable printable (by decide)
  have shape : (log.rowOf count prev mutation).members = log.rowMembers count prev mutation := rfl
  rw [← allTexts_body hex printable count mutation, Row.document, Json.allTexts, shape, rowMembers,
    Json.allTextsMembers_eq_all, Json.allTextsMembers_eq_all, List.all_append]
  simp only [List.all_cons, List.all_nil, Json.allTexts, key, hashed, Bool.and_self, Bool.and_true]

end Texts

theorem not_isSurrogate_of_isPrintable {point : CodePoint} (plain : Json.isPrintable point = true) :
    (!isSurrogate point) = true := by
  rw [Json.isPrintable, Bool.and_eq_true, decide_eq_true_eq, decide_eq_true_eq] at plain
  rw [Bool.not_eq_true', isSurrogate, Bool.and_eq_false_iff, decide_eq_false_iff_not]
  omega

theorem not_isSeparator_of_isPrintable {point : CodePoint} (plain : Json.isPrintable point = true) :
    (!Json.isSeparator point) = true := by
  rw [Json.isPrintable, Bool.and_eq_true, decide_eq_true_eq, decide_eq_true_eq] at plain
  simp only [Bool.not_eq_true', Json.isSeparator, Bool.or_eq_false_iff, decide_eq_false_iff_not]
  omega

/-! ## Recording a row -/

section Recording

variable {log : AuditLog} {file : RecordFile} {held : List Row} {prev : PyText}
  (hex : prev ⊆ hexDigits)

/-- What a file of rows holds: rows that stay on their line, the last with a hash. -/
structure Chained (file : RecordFile) (held : List Row) (prev : PyText) : Prop where
  holds : Holds file (sortedRows held)
  single : held.all Row.onOneLine = true
  last : lastHash (sortedRows held) = some (.string prev)

/-- A text of a row is there when the row is sorted. -/
theorem get?_sortKeys {row : Row} {key : String} {value : PyText}
    (among : (ofString key, .string value) ∈ row.members) :
    row.document.sortKeys.get? key = some (.string value) := by
  rw [Row.document, Json.sortKeys]
  apply Json.get?_of_mem
  · exact row.sorted.nodup_keys
  · rw [Json.mem_sorted]
    exact ⟨_, among, rfl⟩

theorem lastHash_append (row : Row) {hash : PyText}
    (among : (rowHashKey, .string hash) ∈ row.members) :
    lastHash (sortedRows (held ++ [row])) = some (.string hash) := by
  rw [lastHash, sortedRows, List.map_append, List.map_singleton, List.getLast?_concat]
  exact get?_sortKeys among

theorem readJsonl_of_chained (chained : Chained file held prev) :
    readJsonl file = some (sortedRows held) := by
  rw [readJsonl_of_holds chained.holds, if_pos chained.single]

include hex in
/-- What a row is hashed from has an encoding when its arguments have one. -/
theorem canonical_body (count : Nat) (mutation : Mutation) :
    canonical (.object (log.body count (.string prev) mutation)) =
      if (log.redactedFields mutation).allTexts encodable then
        some (bodyBytes (log.body count (.string prev) mutation)) else none := by
  have texts : Json.allTextsMembers encodable (log.body count (.string prev) mutation) =
      (log.redactedFields mutation).allTexts encodable :=
    allTexts_body hex (fun _ => not_isSurrogate_of_isPrintable) count mutation
  have numbers := (log.rowOf count prev mutation).numbers
  have shape : (log.rowOf count prev mutation).members = log.rowMembers count prev mutation := rfl
  rw [shape, Json.numeric, Json.numericMembers_eq_all, rowMembers, List.all_append,
    Bool.and_eq_true, ← Json.numericMembers_eq_all] at numbers
  have fine : (Json.object (log.body count (.string prev) mutation)).sortKeys.numeric = true :=
    (Json.numeric_sortKeys _).trans numbers.1
  rw [canonical, encodeUtf8, Json.encodable_line fine, Json.allTexts_sortKeys, Json.allTexts,
    bodyBytes, texts]

theorem record_eq_bind (chained : Chained file held prev) (mutation : Mutation) :
    log.record file mutation =
      (canonical (.object (log.body held.length (.string prev) mutation))).bind fun bytes =>
        appendJsonl file (.object (log.body held.length (.string prev) mutation ++
          [(rowHashKey, .string (log.hash.digest bytes))])) := by
  have length : (sortedRows held).length = held.length := List.length_map _
  simp only [record, readJsonl_of_chained chained, Option.bind_eq_bind, Option.bind_some,
    chained.last, length]

include hex in
/-- A row whose arguments can be written is recorded. -/
theorem record_of_encodable (chained : Chained file held prev) {mutation : Mutation}
    (fine : (log.redactedFields mutation).allTexts encodable = true) :
    ∃ next, log.record file mutation = some next ∧
      Holds next (sortedRows (held ++ [log.rowOf held.length prev mutation])) := by
  have texts : (log.rowOf held.length prev mutation).document.allTexts encodable = true :=
    (allTexts_rowOf hex (fun _ => not_isSurrogate_of_isPrintable) held.length mutation).trans fine
  have rows : ((RowWrite.append (log.rowOf held.length prev mutation)).rows.all fun row =>
      row.document.allTexts encodable) = true := by
    rw [RowWrite.rows, List.all_cons, List.all_nil, Bool.and_true, texts]
  obtain ⟨next, wrote, kept⟩ := run_of_holds chained.holds (.append _) rows
  refine ⟨next, ?_, kept⟩
  rw [record_eq_bind chained, canonical_body hex, if_pos fine, Option.bind_some]
  exact wrote

include hex in
/-- A row whose arguments cannot be written fails the call. -/
theorem record_of_not_encodable (chained : Chained file held prev) {mutation : Mutation}
    (lone : (log.redactedFields mutation).allTexts encodable = false) :
    log.record file mutation = none := by
  rw [record_eq_bind chained, canonical_body hex, lone, if_neg Bool.false_ne_true, Option.bind_none]

end Recording

/-! ## Checking a row -/

/-- The members that a row is hashed from. -/
def hashedMembers (members : List (PyText × Json)) : List (PyText × Json) :=
  members.filter fun member => member.1 ≠ rowHashKey

/-- A sorted row is hashed from the members that it was recorded with. -/
theorem same_hashedMembers (log : AuditLog) (count : Nat) (prev : PyText) (mutation : Mutation) :
    Json.Same (.object (hashedMembers
        ((Json.sortMembers (log.rowMembers count prev mutation)).insertionSort Json.keyLe)))
      (.object (log.body count (.string prev) mutation)) := by
  have keys := log.map_fst_body count prev mutation
  have apart : ∀ member ∈ Json.sortMembers (log.body count (.string prev) mutation),
      decide (member.1 ≠ rowHashKey) = true := by
    intro member among
    have listed : member.1 ∈ bodyKeys := by
      rw [← keys, ← Json.map_fst_sortMembers]
      exact List.mem_map_of_mem among
    have others : (bodyKeys.all fun key => decide (key ≠ rowHashKey)) = true := by decide
    exact List.all_eq_true.mp others _ listed
  have kept : (hashedMembers (Json.sortMembers (log.rowMembers count prev mutation))) =
      Json.sortMembers (log.body count (.string prev) mutation) := by
    rw [hashedMembers, rowMembers, Json.sortMembers_eq_map, List.map_append,
      ← Json.sortMembers_eq_map, List.filter_append, List.filter_eq_self.mpr apart]
    exact List.append_nil _
  have perm : (hashedMembers
      ((Json.sortMembers (log.rowMembers count prev mutation)).insertionSort Json.keyLe)).Perm
        (Json.sortMembers (log.body count (.string prev) mutation)) := by
    rw [← kept]
    exact (List.perm_insertionSort Json.keyLe _).filter _
  have distinct : ((hashedMembers
      ((Json.sortMembers (log.rowMembers count prev mutation)).insertionSort Json.keyLe)).map
        Prod.fst).Nodup := by
    rw [(perm.map Prod.fst).nodup_iff, Json.map_fst_sortMembers, keys]
    decide
  refine (Json.same_of_perm perm distinct).trans ?_
  rw [Json.Same, Json.sortKeys, Json.sortKeys, Json.sortMembers_sortMembers]

end Orchestrator.Memory.AuditLog
