import Orchestrator.Memory.Keys
import Orchestrator.Memory.Provenance

/-! # Looking rows up

In every store that deltas and cleanups pass through, a lesson and a card are found by
their keys, a promoted lesson has left quarantine, and a held one is there once.
-/

namespace Orchestrator.Memory

open Orchestrator.Foundation

variable {text : TextFunctions} {keys : Set String} {store : MemoryStore}
  {service : MemoryService}

/-! ## Quarantine -/

/-- A row put into quarantine is the only one there under its id. -/
theorem readPending_put_filter (keeps : service.Keeps keys)
    (pending : ∀ row ∈ store.tiers.readPending, ∃ id ∈ keys, row.idOf = some id)
    {record : PendingRow} {id : String} (known : id ∈ keys) (own : record.idOf = some id) :
    ((store.putPending service record id).tiers.readPending.filter fun row => row.idOf = some id) =
      [record.redact service.redactText] := by
  have others : ((store.tiers.readPending.filter fun row => row.idOf ≠ some id).map
      (PendingRow.redact service.redactText)).filter (fun row => row.idOf = some id) = [] := by
    refine List.filter_eq_nil_iff.mpr fun row among => ?_
    obtain ⟨old, held, rfl⟩ := List.mem_map.mp among
    obtain ⟨member, differs⟩ := List.mem_filter.mp held
    rw [PendingRow.redact_idOf keeps (pending old member)]
    simpa using differs
  have same : (record.redact service.redactText).idOf = some id :=
    (PendingRow.redact_idOf keeps ⟨id, known, own⟩).trans own
  rw [MemoryStore.putPending, MemoryStore.replacePending_tiers, Tiers.readPending,
    Option.getD_some, List.map_append, List.filter_append, others, List.nil_append,
    List.map_singleton, List.filter_singleton, decide_eq_true same, cond_true]

/-- A lesson dropped from quarantine is not found there. -/
theorem findPending_dropPending (keeps : service.Keeps keys)
    (pending : ∀ row ∈ store.tiers.readPending, ∃ id ∈ keys, row.idOf = some id) {id : String}
    (real : id ≠ "") :
    findPending (store.dropPending service id).tiers.readPending id = none := by
  refine List.findSome?_eq_none_iff.mpr fun row among => ?_
  obtain ⟨old, held, rfl⟩ := List.mem_map.mp among
  obtain ⟨member, differs⟩ := List.mem_filter.mp held
  have unchanged := PendingRow.redact_idOf keeps (pending old member)
  cases old with
  | entity row => rfl
  | lesson row =>
      refine if_neg fun same => of_decide_eq_true differs ?_
      exact unchanged.symm.trans (LongTermRow.idOf_eq_some.mpr ⟨same, real⟩)

/-- A promoted lesson is not found in quarantine, and a held one is there once. -/
theorem MemoryStore.Keyed.ingested (keyed : store.Keyed keys) (keySet : KeySet text keys)
    (keeps : service.Keeps keys) (context : WriteContext) (proposal : Proposal) :
    let ingested := ingestLongTerm text service context store proposal
    let id := proposal.memoryId text
    (ingested.2 = .promoted → findPending ingested.1.tiers.readPending id = none) ∧
    (ingested.2 = .quarantined →
      ∃ row, (ingested.1.tiers.readPending.filter fun row => row.idOf = some id) =
        [.lesson row]) := by
  intro ingested id
  have known : id ∈ keys := keySet.derived _ _ _
  have real : id ≠ "" := fun empty => keySet.real (empty ▸ known)
  rcases ingestLongTerm_cases text service context store proposal with
    ⟨rows, -, -, outcome⟩ | ⟨-, -, -, outcome⟩ | ⟨-, outcome⟩
  · simp only [ingested, outcome]
    exact ⟨fun other => (by cases other), fun other => (by cases other)⟩
  · simp only [ingested, outcome]
    refine ⟨fun _ => ?_, fun other => (by cases other)⟩
    split
    · exact findPending_dropPending keeps keyed.pending real
    · rename_i absent
      exact Option.not_isSome_iff_eq_none.mp absent
  · simp only [ingested, outcome]
    refine ⟨fun other => (by cases other), fun _ => ?_⟩
    let record := proposal.record text
      (findPending store.tiers.readPending (proposal.memoryId text)) context "quarantined"
    exact ⟨record.redact service.redactText, readPending_put_filter keeps keyed.pending known
      (proposal.record_idOf keySet _ context _)⟩

/-- A held card is in quarantine once. -/
theorem MemoryStore.Keyed.ingestedCard (keyed : store.Keyed keys) (real : "" ∉ keys)
    (keeps : service.Keeps keys) (context : WriteContext) {candidate : CandidateEntity}
    (named : candidate.Named keys) :
    let ingested := ingestEntity service context store candidate
    ingested.2 = .quarantined → ∃ row, (ingested.1.tiers.readPending.filter fun row =>
      row.idOf = some candidate.entityId) = [.entity row] := by
  intro ingested held
  have present : candidate.entityId ≠ "" := fun empty => real (empty ▸ named.2)
  rcases ingestEntity_cases service context store candidate with
    outcome | ⟨rows, -, outcome⟩ | ⟨-, outcome⟩
  · rw [show ingested = _ from outcome]
    let record := candidate.record (assignEntityTrust candidate.paths service.pathExists)
      context.taskId "quarantined"
    exact ⟨record.redact service.redactText, readPending_put_filter keeps keyed.pending named.2
      (EntityRow.idOf_eq_some.mpr ⟨rfl, present⟩)⟩
  · rw [show ingested = _ from outcome] at held
    cases held
  · rw [show ingested = _ from outcome] at held
    cases held

/-- An operation that moves nothing into quarantine but candidates. -/
def Operation.Dry : Operation → Prop
  | .applyDelta .. => True
  | .cleanup _ _ _ _ dryRun _ _ => dryRun = true

def Deed.Dry : Deed → Prop
  | .reconcileCards _ _ dryRun _ => dryRun = true
  | .reconcile _ _ dryRun _ => dryRun = true
  | _ => True

theorem dry_of_mem_deeds {operation : Operation} (dry : operation.Dry) {store : MemoryStore}
    {deed : Deed} (among : deed ∈ operation.deeds text store) : deed.Dry := by
  cases operation with
  | applyDelta service delta episode source now =>
      rcases List.mem_cons.mp among with rfl | candidate
      · trivial
      · rcases List.mem_append.mp candidate with lesson | card
        · obtain ⟨proposal, -, rfl⟩ := List.mem_map.mp lesson
          trivial
        · obtain ⟨proposed, -, rfl⟩ := List.mem_map.mp card
          trivial
  | cleanup service config index now dryRun full clock =>
      cases (show dryRun = true from dry)
      rw [Operation.deeds] at among
      split at among
      · cases among
      · simp only [cleanupDeeds, if_true, List.nil_append, List.mem_cons, List.not_mem_nil,
          or_false] at among
        rcases among with rfl | rfl | rfl | rfl <;> trivial

/-- The rows of quarantine have ids of their own. -/
def MemoryStore.Tidy (store : MemoryStore) (keys : Set String) : Prop :=
  Located keys PendingRow.idOf store.tiers.readPending

theorem MemoryStore.Tidy.others (tidy : store.Tidy keys) (keeps : service.Keeps keys)
    (id : String) : Located keys PendingRow.idOf ((store.tiers.readPending.filter fun row =>
      row.idOf ≠ some id).map (PendingRow.redact service.redactText)) := by
  have fewer : Located keys PendingRow.idOf
      (store.tiers.readPending.filter fun row => row.idOf ≠ some id) :=
    tidy.of_sublist (List.filter_sublist.map _)
  exact fewer.map fun row among => PendingRow.redact_idOf keeps (fewer.keyed row among)

theorem MemoryStore.Tidy.put (tidy : store.Tidy keys) (keeps : service.Keeps keys)
    {record : PendingRow} {id : String} (known : id ∈ keys) (own : record.idOf = some id) :
    (store.putPending service record id).Tidy keys := by
  have same : (record.redact service.redactText).idOf = some id :=
    (PendingRow.redact_idOf keeps ⟨id, known, own⟩).trans own
  rw [Tidy, MemoryStore.putPending, MemoryStore.replacePending_tiers, Tiers.readPending,
    Option.getD_some, List.map_append, List.map_singleton]
  refine (tidy.others keeps id).concat known same fun row among => ?_
  obtain ⟨old, held, rfl⟩ := List.mem_map.mp among
  obtain ⟨member, differs⟩ := List.mem_filter.mp held
  rw [PendingRow.redact_idOf keeps (tidy.keyed old member)]
  exact of_decide_eq_true differs

theorem MemoryStore.Tidy.perform (tidy : store.Tidy keys) (keySet : KeySet text keys)
    {deed : Deed} (within : deed.Within keys) (dry : deed.Dry) :
    (deed.perform text store).Tidy keys := by
  cases deed with
  | snapshot label => exact tidy
  | episode service record => exact tidy
  | propose service context proposal =>
      rw [Deed.perform]
      rcases ingestLongTerm_cases text service context store proposal with
        ⟨rows, -, -, outcome⟩ | ⟨-, -, -, outcome⟩ | ⟨-, outcome⟩
      · rw [outcome]
        exact tidy
      · rw [outcome]
        dsimp only
        split
        · exact tidy.others within _
        · exact tidy
      · rw [outcome]
        exact tidy.put within (keySet.derived _ _ _) (proposal.record_idOf keySet _ context _)
  | card service context candidate =>
      rw [Deed.perform]
      have present : candidate.entityId ≠ "" := fun empty => keySet.real (empty ▸ within.2.2)
      rcases ingestEntity_cases service context store candidate with
        outcome | ⟨rows, -, outcome⟩ | ⟨-, outcome⟩
      · rw [outcome]
        exact tidy.put within.1 within.2.2 (EntityRow.idOf_eq_some.mpr ⟨rfl, present⟩)
      · rw [outcome]
        exact tidy
      · rw [outcome]
        exact tidy
  | expire service config now dryRun budget =>
      have unchanged := (expireEpisodes_others service config now dryRun store budget).2.2
      rw [Tidy, Tiers.readPending, Deed.perform, unchanged]
      exact tidy
  | reconcileCards service index dryRun budget =>
      rcases reconcileEntities_writes service index dryRun store budget with same | ⟨wet, -⟩
      · rw [Deed.perform, same]
        exact tidy
      · exact absurd (wet.symm.trans dry) Bool.false_ne_true
  | reconcile service index dryRun budget =>
      have kept (kind : LongTermKind) (store : MemoryStore) (budget : Budget)
          (tidy : store.Tidy keys) :
          (Memory.reconcileKind text service index dryRun kind store budget).1.Tidy keys := by
        rcases reconcileKind_writes text service index dryRun store budget kind with
          same | ⟨wet, -⟩
        · rw [same]
          exact tidy
        · exact absurd (wet.symm.trans dry) Bool.false_ne_true
      exact reconcileLessons_keeps kept _ budget tidy
  | merge service dryRun budget =>
      have unchanged := (mergeLongTermDuplicates_others text service dryRun store budget
        LongTermKind.all).2.2
      rw [Tidy, Tiers.readPending, Deed.perform, unchanged]
      exact tidy

/-! ## Every run -/

/-- What a store promises about the keys of its rows. -/
structure Coherent (text : TextFunctions) (keys : Set String) (store : MemoryStore) : Prop where
  lessons_distinct : ∀ kind, ((store.tiers.readLongTerm kind).map LongTermRow.memoryId).Nodup
  lesson_found : ∀ kind, ∀ row ∈ store.tiers.readLongTerm kind, ∃ id, row.memoryId = some id ∧
    (store.tiers.readLongTerm kind).find? (fun other => other.memoryId = some id) = some row
  cards_distinct : (store.tiers.readEntities.map EntityRow.canonicalName).Nodup
  card_found : ∀ row ∈ store.tiers.readEntities, ∃ name, row.canonicalName = some name ∧
    store.tiers.readEntities.find? (fun other => other.canonicalName = some name) = some row
  promoted_leaves : ∀ service : MemoryService, service.Keeps keys → ∀ context proposal,
    (ingestLongTerm text service context store proposal).2 = .promoted →
      findPending (ingestLongTerm text service context store proposal).1.tiers.readPending
        (proposal.memoryId text) = none
  held_once : ∀ service : MemoryService, service.Keeps keys → ∀ context proposal,
    (ingestLongTerm text service context store proposal).2 = .quarantined →
      ∃ row, ((ingestLongTerm text service context store proposal).1.tiers.readPending.filter
        fun row => row.idOf = some (proposal.memoryId text)) = [.lesson row]
  card_held_once : ∀ service : MemoryService, service.Keeps keys → ∀ context candidate,
    candidate.Named keys → (ingestEntity service context store candidate).2 = .quarantined →
      ∃ row, ((ingestEntity service context store candidate).1.tiers.readPending.filter
        fun row => row.idOf = some candidate.entityId) = [.entity row]

theorem MemoryStore.Keyed.coherent (keyed : store.Keyed keys) (keySet : KeySet text keys) :
    Coherent text keys store where
  lessons_distinct kind := (keyed.lessons kind).distinct
  lesson_found kind row among := by
    obtain ⟨id, -, own⟩ := (keyed.lessons kind).keyed row among
    exact ⟨id, own, own ▸ (keyed.lessons kind).find among⟩
  cards_distinct := keyed.cards.distinct
  card_found row among := by
    obtain ⟨name, -, own⟩ := keyed.cards.keyed row among
    exact ⟨name, own, own ▸ keyed.cards.find among⟩
  promoted_leaves service keeps context proposal :=
    (keyed.ingested keySet keeps context proposal).1
  held_once service keeps context proposal :=
    (keyed.ingested keySet keeps context proposal).2
  card_held_once service keeps context candidate named :=
    keyed.ingestedCard keySet.real keeps context named

/-- Texts that are not empty. -/
def realTexts : Set String := { key | key ≠ "" }

theorem realTexts_keySet : KeySet sampleText realTexts where
  real := fun real => real rfl
  derived kind subject paths := deriveLongTermId_ne_empty sampleText kind subject paths

/-- A failed task proposes the promoted lesson again. -/
def failedOffer : Offer :=
  { checkedOffer "c" (midnight "2026-01-03" 3) with source := .failure }

/-- A card of one entity under a path. -/
def cardRun (service : MemoryService) (taskId path : String) : Operation :=
  .applyDelta service (some { entities := [{
      entityId := "settings"
      entityType := "module"
      paths := [path] }] })
    { id := "ep_" ++ taskId, taskId, createdAt := midnight "2026-01-01" 1 } .success
    (midnight "2026-01-01" 1)

/-- A service that redacts the value of an assignment in a path. -/
def redactingService : MemoryService where
  redactText text := if text = "config/token=abc.py" then "config/token=[REDACTED]" else text

end Orchestrator.Memory
