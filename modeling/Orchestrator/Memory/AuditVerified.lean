import Orchestrator.Memory.AuditRows

/-! # The audit chain verifies

The rows that a sequence of calls records are verified when they are read back. A list of rows that
is verified is told by its last hash.
-/

namespace Orchestrator.Memory.AuditLog

open Orchestrator.Foundation PyText Store Security

/-! ## Recorded rows -/

section Recorded

variable (log : AuditLog)

/-- The rows that calls record, after a number of rows and a hash. -/
def rowsFrom : Nat → PyText → List Mutation → List Row
  | _, _, [] => []
  | count, prev, mutation :: mutations =>
      log.rowOf count prev mutation ::
        rowsFrom (count + 1) (log.rowHash count prev mutation) mutations

/-- The hashes of the rows that calls record. -/
def hashesFrom : Nat → PyText → List Mutation → List PyText
  | _, _, [] => []
  | count, prev, mutation :: mutations =>
      log.rowHash count prev mutation ::
        hashesFrom (count + 1) (log.rowHash count prev mutation) mutations

/-- No secret is the hash of a row. -/
def Apart (mutations : List Mutation) : Prop :=
  ∀ hash ∈ log.hashesFrom 0 [] mutations, hash ∉ log.extraSecrets

end Recorded

section Verified

variable {log : AuditLog} {prev : PyText} (hex : prev ⊆ hexDigits)

theorem canonical_congr {first second : Json} (same : Json.Same first second) :
    canonical first = canonical second := by
  rw [canonical, canonical, same]

include hex in
/-- The check goes past a row that was recorded. -/
theorem verifyRows_rowOf (shown : prev ∉ literalSecrets log.extraSecrets) {count : Nat}
    {mutation : Mutation} (fine : (log.redactedFields mutation).allTexts encodable = true)
    (rows : List Json) :
    log.verifyRows prev ((log.rowOf count prev mutation).document.sortKeys :: rows) =
      log.verifyRows (log.rowHash count prev mutation) rows := by
  have plain : isSensitiveKey prevHashKey = false := by decide
  have member : (prevHashKey, Json.string prev) ∈ (log.rowOf count prev mutation).members := by
    have listed : (prevHashKey, Json.string prev) ∈ (ofString "id", Json.string (rowId count)) ::
        (mutation.fields ++ [(prevHashKey, .string prev)]) :=
      List.mem_cons_of_mem _ (List.mem_append_right _ (List.mem_singleton_self _))
    have kept := mem_redactMembers log.words log.extraSecrets listed plain
    rw [redactText_hex log.words hex shown] at kept
    exact List.mem_append_left _ kept
  have hashed : (rowHashKey, Json.string (log.rowHash count prev mutation)) ∈
      (log.rowOf count prev mutation).members :=
    List.mem_append_right _ (List.mem_singleton_self _)
  have link : (log.rowOf count prev mutation).document.sortKeys.get? "prev_hash" =
      some (.string prev) := get?_sortKeys member
  have stored : (log.rowOf count prev mutation).document.sortKeys.get? "row_hash" =
      some (.string (log.rowHash count prev mutation)) := get?_sortKeys hashed
  have bytes := (canonical_congr (log.same_hashedMembers count prev mutation)).trans
    (canonical_body hex count mutation)
  rw [if_pos fine] at bytes
  have shape : (log.rowOf count prev mutation).document.sortKeys = .object
      ((Json.sortMembers (log.rowMembers count prev mutation)).insertionSort Json.keyLe) := by
    rw [Row.document, Json.sortKeys]
    rfl
  rw [shape] at link stored ⊢
  rw [hashedMembers] at bytes
  rw [verifyRows, link, stored, bytes]
  simp only [isText, decide_true, if_true, Option.bind_eq_bind, Option.bind_some, rowHash]

/-- A hash that is no secret is not replaced. -/
theorem shown_of_apart {hash : PyText} (apart : hash ∉ log.extraSecrets) :
    hash ∉ literalSecrets log.extraSecrets := fun listed => apart (mem_literalSecrets listed).1

theorem nil_shown : [] ∉ literalSecrets log.extraSecrets := fun listed =>
  absurd (mem_literalSecrets listed).2 (by decide)

include hex in
/-- The rows that were recorded are verified. -/
theorem verifyRows_rowsFrom (shown : prev ∉ literalSecrets log.extraSecrets) {count : Nat}
    {mutations : List Mutation}
    (apart : ∀ hash ∈ log.hashesFrom count prev mutations, hash ∉ log.extraSecrets)
    (fine : ∀ mutation ∈ mutations, (log.redactedFields mutation).allTexts encodable = true) :
    log.verifyRows prev (sortedRows (log.rowsFrom count prev mutations)) = some true := by
  induction mutations generalizing count prev with
  | nil => rfl
  | cons mutation mutations ih =>
      rw [hashesFrom, List.forall_mem_cons] at apart
      rw [List.forall_mem_cons] at fine
      rw [rowsFrom, sortedRows, List.map_cons, verifyRows_rowOf hex shown fine.1]
      exact ih (log.hash.hex _) (shown_of_apart apart.1) apart.2 fine.2

include hex in
theorem onOneLine_rowOf (count : Nat) (mutation : Mutation) :
    (log.rowOf count prev mutation).onOneLine =
      (log.redactedFields mutation).allTexts Json.onOneLine :=
  allTexts_rowOf hex (fun _ => not_isSeparator_of_isPrintable) count mutation

theorem mem_rowHash (count : Nat) (mutation : Mutation) :
    (rowHashKey, Json.string (log.rowHash count prev mutation)) ∈
      (log.rowOf count prev mutation).members :=
  List.mem_append_right _ (List.mem_singleton_self _)

/-- The file after a row that stays on its line. -/
theorem Chained.snoc {next : RecordFile} {file : RecordFile} {held : List Row}
    (chained : Chained file held prev) (hex : prev ⊆ hexDigits) {mutation : Mutation}
    (holds : Holds next (sortedRows (held ++ [log.rowOf held.length prev mutation])))
    (single : (log.redactedFields mutation).allTexts Json.onOneLine = true) :
    Chained next (held ++ [log.rowOf held.length prev mutation])
      (log.rowHash held.length prev mutation) where
  holds := holds
  single := by
    rw [List.all_append, chained.single, List.all_cons, onOneLine_rowOf hex, single]
    rfl
  last := lastHash_append _ (mem_rowHash _ _)

include hex in
/-- Rows that can be written and stay on their lines are all recorded. -/
theorem recordAll_of_clean {file : RecordFile} {held : List Row} (chained : Chained file held prev)
    {mutations : List Mutation} (clean : ∀ mutation ∈ mutations, log.clean mutation = true) :
    ∃ next last, mutations.foldlM log.record file = some next ∧
      Chained next (held ++ log.rowsFrom held.length prev mutations) last := by
  induction mutations generalizing file held prev with
  | nil => exact ⟨file, prev, rfl, by rwa [rowsFrom, List.append_nil]⟩
  | cons mutation mutations ih =>
      rw [List.forall_mem_cons, AuditLog.clean, Bool.and_eq_true] at clean
      obtain ⟨middle, wrote, holds⟩ := record_of_encodable hex chained clean.1.1
      have step := chained.snoc hex holds clean.1.2
      obtain ⟨next, last, ran, kept⟩ := ih (log.hash.hex _) step clean.2
      rw [List.length_append, List.length_singleton, List.append_assoc, List.singleton_append]
        at kept
      refine ⟨next, last, ?_, kept⟩
      rw [List.foldlM_cons, wrote]
      exact ran

include hex in
/-- After a row that is not, nothing is read any more. -/
theorem readJsonl_of_unclean {file next : RecordFile} {held : List Row}
    (chained : Chained file held prev) {mutations : List Mutation}
    (unclean : ∃ mutation ∈ mutations, log.clean mutation = false)
    (ran : mutations.foldlM log.record file = some next) : readJsonl next = none := by
  induction mutations generalizing file held prev with
  | nil =>
      obtain ⟨mutation, listed, -⟩ := unclean
      cases listed
  | cons mutation mutations ih =>
      rw [List.foldlM_cons, Option.bind_eq_bind, Option.bind_eq_some_iff] at ran
      obtain ⟨middle, wrote, later⟩ := ran
      cases fine : (log.redactedFields mutation).allTexts encodable with
      | false =>
          rw [record_of_not_encodable hex chained fine] at wrote
          cases wrote
      | true =>
          obtain ⟨other, again, holds⟩ := record_of_encodable hex chained fine
          rw [wrote] at again
          cases again
          cases single : (log.redactedFields mutation).allTexts Json.onOneLine with
          | true =>
              refine ih (log.hash.hex _) (chained.snoc hex holds single) ?_ later
              obtain ⟨dirty, listed, broken⟩ := unclean
              rcases List.mem_cons.mp listed with rfl | after
              · rw [AuditLog.clean, fine, single] at broken
                cases broken
              · exact ⟨dirty, after, broken⟩
          | false =>
              have unread : readJsonl middle = none := by
                rw [readJsonl_of_holds holds, List.all_append, List.all_cons, onOneLine_rowOf hex,
                  single, Bool.false_and, Bool.and_false, if_neg Bool.false_ne_true]
              cases mutations with
              | nil =>
                  cases later
                  exact unread
              | cons second mutations =>
                  rw [List.foldlM_cons, record, unread] at later
                  cases later

end Verified

/-- The rows of a sequence of calls are read back and verified. -/
def Verifies (log : AuditLog) (mutations : List Mutation) : Prop :=
  ∃ file, log.recordAll mutations = some file ∧
    (∃ recorded : List Row, readJsonl file = some (recorded.map Row.document)) ∧
      log.verifyChain file = some true

theorem sortedRows_eq_map (rows : List Row) :
    sortedRows rows = (rows.map Row.sorted).map Row.document := by
  rw [sortedRows, List.map_map]
  exact List.map_congr_left fun row _ => row.sorted_document.symm

/-- A sequence of calls is verified exactly when each of its rows can be written and stays on its
line. -/
theorem verifies_iff (log : AuditLog) {mutations : List Mutation} (apart : log.Apart mutations) :
    log.Verifies mutations ↔ ∀ mutation ∈ mutations, log.clean mutation = true := by
  have start : Chained none [] [] := ⟨rfl, rfl, rfl⟩
  have hex : ([] : PyText) ⊆ hexDigits := List.nil_subset _
  constructor
  · rintro ⟨file, ran, ⟨recorded, read⟩, -⟩ mutation listed
    by_contra broken
    have unread := readJsonl_of_unclean hex start
      ⟨mutation, listed, (Bool.not_eq_true _).mp broken⟩ ran
    rw [unread] at read
    cases read
  · intro clean
    obtain ⟨file, last, ran, kept⟩ := recordAll_of_clean hex start clean
    rw [List.nil_append] at kept
    have read := readJsonl_of_chained kept
    have fine : ∀ mutation ∈ mutations,
        (log.redactedFields mutation).allTexts encodable = true := fun mutation listed =>
      (Bool.and_eq_true_iff.mp (clean mutation listed)).1
    refine ⟨file, ran, ⟨_, read.trans (congrArg some (sortedRows_eq_map _))⟩, ?_⟩
    rw [verifyChain, read]
    exact verifyRows_rowsFrom hex nil_shown apart fine

end Orchestrator.Memory.AuditLog

/-! ## The evidence of the audit chain

Where no two of their rows collide, two lists of rows that are verified and end in the same hash are
the same: the last rows have the same hash, so they are the same, and so is the hash that each
carries of the row before it.
-/

namespace Orchestrator.Memory.AuditLog

open Orchestrator.Foundation PyText Store Security

variable {log : AuditLog}

/-- What is checked of a row after a hash: the hash that it carries and its own. -/
structure Checks (log : AuditLog) (prev : PyText) (row : Row) (stored : PyText) : Prop where
  link : (prevHashKey, Json.string prev) ∈ row.members
  own : (rowHashKey, Json.string stored) ∈ row.members
  hashed : ∃ bytes, canonical (.object (hashedMembers row.members)) = some bytes ∧
    log.hash.digest bytes = stored

/-- A chain of rows, from a hash to the hash of its last row. -/
inductive Chain (log : AuditLog) (first : PyText) : List Row → PyText → Prop where
  | nil : Chain log first [] first
  | snoc {rows : List Row} {row : Row} {prev stored : PyText} (before : Chain log first rows prev)
      (checks : Checks log prev row stored) : Chain log first (rows ++ [row]) stored

theorem Chain.cons {first middle last : PyText} {row : Row} {rows : List Row}
    (checks : Checks log first row middle) (after : Chain log middle rows last) :
    Chain log first (row :: rows) last := by
  induction after with
  | nil => exact .snoc .nil checks
  | snoc before next ih => exact .snoc ih next

theorem mem_of_isText {members : List (PyText × Json)} {key : String} {text : PyText}
    (shown : isText ((Json.object members).get? key) text = true) :
    (ofString key, Json.string text) ∈ members := by
  cases found : (Json.object members).get? key with
  | none =>
      rw [found] at shown
      cases shown
  | some value =>
      rw [found] at shown
      cases value with
      | string other =>
          have same : other = text := of_decide_eq_true shown
          exact same ▸ Json.mem_of_get? found
      | _ => cases shown

/-- A list of rows that is verified is a chain. -/
theorem chain_of_verifyRows {prev : PyText} {rows : List Row}
    (verified : log.verifyRows prev (rows.map Row.document) = some true) :
    ∃ last, Chain log prev rows last := by
  induction rows generalizing prev with
  | nil => exact ⟨prev, .nil⟩
  | cons row rows ih =>
      rw [List.map_cons, Row.document, verifyRows] at verified
      split at verified
      · rename_i link
        rw [Option.bind_eq_bind, Option.bind_eq_some_iff] at verified
        obtain ⟨bytes, encoded, verified⟩ := verified
        split at verified
        · rename_i own
          obtain ⟨last, after⟩ := ih verified
          exact ⟨last, .cons ⟨mem_of_isText link, mem_of_isText own, bytes, encoded, rfl⟩ after⟩
        · cases verified
      · cases verified

/-- No two rows of two lists have one hash without having been hashed from the same. -/
def NoCollision (log : AuditLog) (first second : List Row) : Prop :=
  ∀ one ∈ first, ∀ other ∈ second, ∀ {front back},
    canonical (.object (hashedMembers one.members)) = some front →
      canonical (.object (hashedMembers other.members)) = some back →
        log.hash.digest front = log.hash.digest back → front = back

theorem numeric_hashedMembers (row : Row) :
    (Json.object (hashedMembers row.members)).numeric = true := by
  have numbers := row.numbers
  rw [Json.numeric, Json.numericMembers_eq_all, List.all_eq_true] at numbers
  rw [Json.numeric, Json.numericMembers_eq_all, List.all_eq_true]
  exact fun member among => numbers member (List.mem_filter.mp among).1

/-- What is hashed from the same bytes is the same. -/
theorem same_of_canonical {first second : Row} {bytes : List UInt8}
    (front : canonical (.object (hashedMembers first.members)) = some bytes)
    (back : canonical (.object (hashedMembers second.members)) = some bytes) :
    Json.Same (.object (hashedMembers first.members)) (.object (hashedMembers second.members)) := by
  have left := decodeUtf8_of_encodeUtf8 front
  rw [decodeUtf8_of_encodeUtf8 back, Option.some.injEq] at left
  exact Json.same_of_line (numeric_hashedMembers first) (numeric_hashedMembers second) left.symm

/-- A row is its hash and the members that it is hashed from. -/
theorem perm_hashedMembers {row : Row} {stored : PyText}
    (own : (rowHashKey, Json.string stored) ∈ row.members) :
    row.members.Perm ((rowHashKey, .string stored) :: hashedMembers row.members) := by
  have distinct := row.nodup_keys
  have other : (rowHashKey, Json.string stored) ∉ hashedMembers row.members := fun among =>
    of_decide_eq_true (List.mem_filter.mp among).2 rfl
  have apart := List.Nodup.of_map Prod.fst distinct
  rw [List.perm_ext_iff_of_nodup apart (List.nodup_cons.mpr ⟨other, apart.filter _⟩)]
  intro member
  rw [List.mem_cons, hashedMembers, List.mem_filter, decide_eq_true_eq]
  constructor
  · intro among
    by_cases named : member.1 = rowHashKey
    · exact .inl (List.inj_on_of_nodup_map distinct among own named)
    · exact .inr ⟨among, named⟩
  · rintro (rfl | ⟨among, -⟩)
    · exact own
    · exact among

/-- Rows with the same hash that are hashed from the same are the same. -/
theorem same_of_hashedMembers {first second : Row} {stored : PyText}
    (front : (rowHashKey, Json.string stored) ∈ first.members)
    (back : (rowHashKey, Json.string stored) ∈ second.members)
    (same : Json.Same (.object (hashedMembers first.members))
      (.object (hashedMembers second.members))) : Json.Same first.document second.document := by
  have values := Json.perm_of_same same
  have left := perm_hashedMembers front
  have right := perm_hashedMembers back
  have sorted : (Json.sortMembers first.members).Perm (Json.sortMembers second.members) := by
    rw [Json.sortMembers_eq_map, Json.sortMembers_eq_map] at values ⊢
    refine (left.map _).trans (List.Perm.trans ?_ (right.map _).symm)
    rw [List.map_cons, List.map_cons]
    exact values.cons _
  have distinct : ((Json.sortMembers first.members).map Prod.fst).Nodup := by
    rw [Json.map_fst_sortMembers]
    exact first.nodup_keys
  rw [Row.document, Row.document, Json.Same, Json.sortKeys, Json.sortKeys,
    Json.insertionSort_eq_of_perm sorted distinct]

/-- What a row carries of the row before it, told by what it is hashed from. -/
theorem link_of_same {first second : Row} {prev other : PyText}
    (front : (prevHashKey, Json.string prev) ∈ first.members)
    (back : (prevHashKey, Json.string other) ∈ second.members)
    (same : Json.Same (.object (hashedMembers first.members))
      (.object (hashedMembers second.members))) : prev = other := by
  have named : decide (prevHashKey ≠ rowHashKey) = true := by decide
  have kept : (prevHashKey, Json.string prev) ∈ hashedMembers first.members :=
    List.mem_filter.mpr ⟨front, named⟩
  have there := (List.mem_filter.mp (Json.mem_of_same same kept)).1
  have alike := List.inj_on_of_nodup_map second.nodup_keys there back rfl
  exact Json.string.inj (Prod.mk.inj alike).2

/-- Chains from the start that end in the same hash have the same rows. -/
theorem Chain.unique {first second : List Row} {last : PyText} (front : Chain log [] first last)
    (back : Chain log [] second last) (apart : log.NoCollision first second) :
    List.Forall₂ (fun one other => Json.Same one.document other.document) first second := by
  induction front generalizing second with
  | nil =>
      cases back with
      | nil => exact .nil
      | snoc before checks =>
          obtain ⟨bytes, -, empty⟩ := checks.hashed
          exact absurd empty (log.hash.nonempty bytes)
  | @snoc rows row prev stored before checks ih =>
      obtain ⟨bytes, encoded, digested⟩ := checks.hashed
      cases back with
      | nil => exact absurd digested (log.hash.nonempty bytes)
      | @snoc others other otherPrev _ otherBefore otherChecks =>
          obtain ⟨otherBytes, otherEncoded, otherDigested⟩ := otherChecks.hashed
          have bytesSame : bytes = otherBytes := apart row (List.mem_append_right _
            (List.mem_singleton_self _)) other (List.mem_append_right _ (List.mem_singleton_self _))
              encoded otherEncoded (digested.trans otherDigested.symm)
          subst bytesSame
          have same := same_of_canonical encoded otherEncoded
          have link := link_of_same checks.link otherChecks.link same
          subst link
          have earlier := ih otherBefore fun one listed other among =>
            apart one (List.mem_append_left _ listed) other (List.mem_append_left _ among)
          exact List.rel_append earlier
            (.cons (same_of_hashedMembers checks.own otherChecks.own same) .nil)

theorem Chain.lastHash {rows : List Row} {last : PyText} (chain : Chain log [] rows last) :
    AuditLog.lastHash (rows.map Row.document) = some (.string last) := by
  cases chain with
  | nil => rfl
  | snoc before checks =>
      rw [AuditLog.lastHash, List.map_append, List.map_singleton, List.getLast?_concat]
      exact Json.get?_of_mem (Row.nodup_keys _) checks.own

/-- The audit chain is verified exactly when each recorded row can be written and stays on its line,
and verified rows are told by the hash of the last. -/
theorem audit_chain_iff (log : AuditLog) (mutations : List Mutation) (apart : log.Apart mutations) :
    (log.Verifies mutations ↔ ∀ mutation ∈ mutations, log.clean mutation = true) ∧
      ∀ first second : List Row,
        log.verifyRows [] (first.map Row.document) = some true →
        log.verifyRows [] (second.map Row.document) = some true →
        log.NoCollision first second →
        AuditLog.lastHash (first.map Row.document) = AuditLog.lastHash (second.map Row.document) →
          List.Forall₂ (fun one other => Json.Same one.document other.document) first second := by
  refine ⟨log.verifies_iff apart, fun first second left right collide last => ?_⟩
  obtain ⟨front, firstChain⟩ := chain_of_verifyRows left
  obtain ⟨back, secondChain⟩ := chain_of_verifyRows right
  rw [firstChain.lastHash, secondChain.lastHash] at last
  have same : front = back := Json.string.inj (Option.some.inj last)
  subst same
  exact firstChain.unique secondChain collide

/-! ## A recorded row -/

/-- The first row of an episode. -/
def episodeRow (id : String) : Mutation where
  action := .append
  affectedIds := [ofString id]
  preHash := none
  postHash := none
  context := {
    timestamp := ofString "2026-01-01T00:00:00"
    taskId := ofString "42" }

/-- A log whose hash is the one of the row of `ep_42`. -/
def episodeLog : AuditLog where
  words := .ofAscii
  hash := {
    digest := fun _ => ofString
      "f7c414bc1558764d5546b465409f39c8cdf1e9cae485687fe58692bd82d59dca"
    hex := fun _ => by decide
    nonempty := fun _ => by decide }
  extraSecrets := []

theorem episodeRow_verified : episodeLog.Verifies [episodeRow "ep_42"] := by
  have apart : episodeLog.Apart [episodeRow "ep_42"] := fun _ _ => List.not_mem_nil
  refine (audit_chain_iff episodeLog _ apart).1.mpr ?_
  rw [List.forall_mem_singleton]
  decide +kernel

/-- A row that names an id with a line separator is not read back. -/
theorem separatedId_unverified :
    episodeLog.Apart [episodeRow "ep\u2028_42"] ∧
      ¬ episodeLog.Verifies [episodeRow "ep\u2028_42"] := by
  have apart : episodeLog.Apart [episodeRow "ep\u2028_42"] := fun _ _ => List.not_mem_nil
  refine ⟨apart, fun verified => ?_⟩
  have clean := (verifies_iff episodeLog apart).mp verified
  rw [List.forall_mem_singleton] at clean
  exact absurd clean (by decide +kernel)

end Orchestrator.Memory.AuditLog
