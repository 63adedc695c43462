import Orchestrator.Memory.Runs
import Orchestrator.Memory.Window

/-! # Where long-term memory comes from

Every lesson ever written to a long-term file stems from a candidate that was admissible
when it was proposed: promotion takes no other, and merges, moves and redactions only
rework what is there.
-/

namespace Orchestrator.Memory

open Orchestrator.Foundation

/-- A candidate as a service has been given it. -/
structure Proposed where
  service : MemoryService
  context : WriteContext
  proposal : Proposal

/-- The candidates of an operation. -/
def Operation.proposed : Operation → List Proposed
  | .applyDelta service delta episode source now =>
      (delta.getD {}).proposals.map fun proposal =>
        ⟨service, ⟨source, now, episode.taskId⟩, proposal⟩
  | .cleanup .. => []

def Deed.proposed : Deed → Option Proposed
  | .propose service context proposal => some ⟨service, context, proposal⟩
  | _ => none

variable (text : TextFunctions)

/-- A candidate of a task that has not failed, whose evidence grounds a durable trust level. -/
structure Proposed.Admissible (origin : Proposed) : Prop where
  source : origin.context.source = .success
  evidence : origin.proposal.evidence ≠ []
  durable : assignTrust text origin.proposal.evidence ∈ durableTrustLevels

variable (candidates : List Proposed) (kind : LongTermKind)

/-- The lessons of a kind that can be made of admissible candidates. -/
inductive Stems : LongTermRow → Prop
  | promoted (origin : Proposed) (prior : Option LongTermRow) (given : origin ∈ candidates)
      (own : origin.proposal.kind = kind) (admissible : origin.Admissible text)
      (gate : origin.proposal.promotes text origin.service.config prior origin.context = true) :
      Stems (origin.proposal.record text prior origin.context "active")
  | merged (row : LongTermRow) (origin : Proposed) (given : origin ∈ candidates)
      (own : origin.proposal.kind = kind) (admissible : origin.Admissible text)
      (same : row.memoryId = some (origin.proposal.memoryId text)) (stems : Stems row) :
      Stems (row.merge origin.proposal origin.context)
  | redacted (row : LongTermRow) (scrub : String → String) (stems : Stems row) :
      Stems (row.redact scrub)
  | remapped (row moved : LongTermRow) (index : DerivedIndex)
      (verdict : classifyLesson text index kind row = .remap moved) (stems : Stems row) :
      Stems moved
  | absorbed (keeper row : LongTermRow) (stems : Stems keeper) (other : Stems row) :
      Stems (keeper.absorb row)

variable {text candidates kind}

/-! ## What stems from an admissible candidate -/

theorem Proposal.admissible_of_not_weak {origin : Proposed}
    (strong : origin.proposal.weak text origin.context.source = false) :
    origin.Admissible text := by
  simp only [Proposal.weak, Bool.or_eq_false_iff, decide_eq_false_iff_not, not_not] at strong
  obtain ⟨⟨source, evidence⟩, durable⟩ := strong
  refine ⟨?_, evidence, durable⟩
  cases named : origin.context.source with
  | success => rfl
  | failure => exact absurd named source

theorem unionEvidence_ne_nil {known : List Evidence} (some : known ≠ []) (new : List Evidence) :
    unionEvidence known new ≠ [] := by
  unfold unionEvidence
  induction new generalizing known with
  | nil => exact some
  | cons item rest ih =>
      apply ih
      dsimp only
      split
      · exact some
      · exact List.append_ne_nil_of_left_ne_nil some _

/-- A lesson that stems from admissible candidates keeps the trust level of the one promoted, and
evidence. -/
theorem Stems.origin {row : LongTermRow} (stems : Stems text candidates kind row) :
    row.kind = kind ∧ row.evidence ≠ [] ∧ ∃ origin ∈ candidates, origin.proposal.kind = kind ∧
      origin.Admissible text ∧ row.trustLevel = assignTrust text origin.proposal.evidence := by
  induction stems with
  | promoted origin prior given own admissible gate =>
      exact ⟨own, admissible.evidence, origin, given, own, admissible, rfl⟩
  | merged row origin given own admissible same stems ih =>
      exact ⟨ih.1, unionEvidence_ne_nil ih.2.1 _, ih.2.2⟩
  | redacted row scrub stems ih =>
      exact ⟨ih.1, fun none => ih.2.1 (List.map_eq_nil_iff.mp none), ih.2.2⟩
  | remapped row moved index verdict stems ih =>
      obtain ⟨scope, paths, -, -, -, rfl⟩ := classifyLesson_eq_remap verdict
      exact ih
  | absorbed keeper row stems other ih =>
      exact ⟨ih.1, unionEvidence_ne_nil ih.2.1 _, ih.2.2⟩

/-! ## Every write keeps the origins -/

/-- Every lesson of the store stems from admissible candidates. -/
def MemoryStore.Stemmed (text : TextFunctions) (candidates : List Proposed)
    (store : MemoryStore) : Prop :=
  ∀ kind, ∀ row ∈ store.tiers.readLongTerm kind, Stems text candidates kind row

variable {store : MemoryStore}

theorem stemmed_of_longTerm_eq {after : MemoryStore} (stemmed : store.Stemmed text candidates)
    (same : after.tiers.longTerm = store.tiers.longTerm) : after.Stemmed text candidates := by
  intro kind row among
  rw [Tiers.readLongTerm, same] at among
  exact stemmed kind row among

/-- A file may be replaced by lessons that stem from admissible candidates. -/
theorem MemoryStore.Stemmed.update (stemmed : store.Stemmed text candidates) {after : MemoryStore}
    {scrub : String → String} {rows : List LongTermRow}
    (all : ∀ row ∈ rows, Stems text candidates kind row)
    (written : after.tiers.longTerm = Function.update store.tiers.longTerm kind
      (some (rows.map (LongTermRow.redact scrub)))) : after.Stemmed text candidates := by
  intro other row among
  rw [Tiers.readLongTerm, written] at among
  by_cases same : other = kind
  · subst same
    rw [Function.update_self, Option.getD_some] at among
    obtain ⟨old, member, rfl⟩ := List.mem_map.mp among
    exact .redacted old _ (all old member)
  · rw [Function.update_of_ne same] at among
    exact stemmed other row among

theorem MemoryStore.Stemmed.propose (stemmed : store.Stemmed text candidates) (origin : Proposed)
    (given : origin ∈ candidates) :
    (ingestLongTerm text origin.service origin.context store origin.proposal).1.Stemmed text
      candidates := by
  rcases ingestLongTerm_cases text origin.service origin.context store origin.proposal with
    ⟨rows, strong, known, outcome⟩ | ⟨strong, -, gate, outcome⟩ | ⟨-, outcome⟩
  · have admissible := Proposal.admissible_of_not_weak strong
    obtain ⟨before, row, after, old, own, -, rfl⟩ := updateFirst_eq_some known
    rw [outcome]
    have stems := stemmed origin.proposal.kind
    rw [old] at stems
    refine stemmed.update (fun other among => ?_) rfl
    rcases List.mem_append.mp among with early | late
    · exact stems other (List.mem_append_left _ early)
    · rcases List.mem_cons.mp late with rfl | later
      · exact .merged row origin given rfl admissible (of_decide_eq_true own)
          (stems row (List.mem_append_right _ List.mem_cons_self))
      · exact stems other (List.mem_append_right _ (List.mem_cons_of_mem _ later))
  · have admissible := Proposal.admissible_of_not_weak strong
    have promoted : (store.appendLongTerm origin.service (origin.proposal.record text
        (findPending store.tiers.readPending (origin.proposal.memoryId text)) origin.context
          "active") (origin.proposal.memoryId text)).Stemmed text candidates := by
      intro kind row among
      rw [MemoryStore.readLongTerm_appendLongTerm] at among
      split at among
      · rename_i own
        rcases List.mem_append.mp among with old | new
        · exact own ▸ stemmed _ row old
        · cases List.mem_singleton.mp new
          exact .redacted _ _ (.promoted origin _ given own.symm admissible gate)
      · exact stemmed kind row among
    rw [outcome]
    dsimp only
    split
    · exact stemmed_of_longTerm_eq promoted rfl
    · exact promoted
  · rw [outcome]
    exact stemmed_of_longTerm_eq stemmed rfl

theorem MemoryStore.Stemmed.reconcileKind (stemmed : store.Stemmed text candidates)
    (service : MemoryService) (index : DerivedIndex) (dryRun : Bool) (kind : LongTermKind)
    (budget : Budget) :
    (Memory.reconcileKind text service index dryRun kind store budget).1.Stemmed text
      candidates := by
  rcases reconcileKind_writes text service index dryRun store budget kind with
    same | ⟨-, written⟩
  · rw [same]
    exact stemmed
  · refine stemmed.update ?_ (congrArg Tiers.longTerm written)
    refine forall_mem_collapseByMemoryId (fun keeper row => .absorbed keeper row) ?_
    intro row among
    rcases mem_reconcileRows_kept among with old | ⟨old, member, -, remapped⟩
    · exact stemmed kind row old
    · exact .remapped old row index remapped (stemmed kind old member)

theorem MemoryStore.Stemmed.perform (stemmed : store.Stemmed text candidates) (deed : Deed)
    (given : ∀ origin ∈ deed.proposed, origin ∈ candidates) :
    (deed.perform text store).Stemmed text candidates := by
  cases deed with
  | snapshot label => exact stemmed
  | episode service record => exact stemmed_of_longTerm_eq stemmed rfl
  | propose service context proposal =>
      exact stemmed.propose ⟨service, context, proposal⟩ (given _ rfl)
  | card service context candidate =>
      exact stemmed_of_longTerm_eq stemmed (ingestEntity_longTerm service store context candidate)
  | expire service config now dryRun budget =>
      exact stemmed_of_longTerm_eq stemmed
        (expireEpisodes_others service config now dryRun store budget).1
  | reconcileCards service index dryRun budget =>
      exact stemmed_of_longTerm_eq stemmed
        (reconcileEntities_others service index dryRun store budget).2
  | reconcile service index dryRun budget =>
      have kept (kind : LongTermKind) (store : MemoryStore) (budget : Budget)
          (held : store.Stemmed text candidates) :
          (Memory.reconcileKind text service index dryRun kind store budget).1.Stemmed text
            candidates :=
        held.reconcileKind service index dryRun kind budget
      exact reconcileLessons_keeps kept _ budget stemmed
  | merge service dryRun budget =>
      have kept (kind : LongTermKind) (store : MemoryStore)
          (held : store.Stemmed text candidates) :
          let collapsed := collapseDuplicates text (store.tiers.readLongTerm kind)
          (store.replaceLongTerm service kind collapsed
            (collapsed.filterMap LongTermRow.idOf) .merge).Stemmed text candidates :=
        held.update (forall_mem_collapseDuplicates (fun keeper row => .absorbed keeper row)
          (held kind)) rfl
      exact mergeLongTermDuplicates_keeps kept _ budget stemmed

/-- The deeds of an operation propose its candidates. -/
theorem proposed_of_mem_deeds {operation : Operation} {deed : Deed}
    (among : deed ∈ operation.deeds text store) :
    ∀ origin ∈ deed.proposed, origin ∈ operation.proposed := by
  intro origin given
  cases operation with
  | applyDelta service delta episode source now =>
      rcases List.mem_cons.mp among with rfl | candidate
      · cases given
      · rcases List.mem_append.mp candidate with lesson | card
        · obtain ⟨proposal, member, rfl⟩ := List.mem_map.mp lesson
          cases given
          exact List.mem_map_of_mem member
        · obtain ⟨candidate, -, rfl⟩ := List.mem_map.mp card
          cases given
  | cleanup service config index now dryRun full clock =>
      have passes : deed.proposed = none := by
        rw [Operation.deeds] at among
        split at among
        · cases among
        · rcases List.mem_append.mp among with first | pass
          · cases dryRun with
            | true => cases first
            | false => exact List.mem_singleton.mp first ▸ rfl
          · simp only [cleanupDeeds, List.mem_cons, List.not_mem_nil, or_false] at pass
            rcases pass with rfl | rfl | rfl | rfl <;> rfl
      rw [passes] at given
      cases given

/-- No self-certification: whatever operations run in whatever order, every lesson in a long-term
file stems from admissible candidates among those proposed. -/
theorem longTerm_stems (text : TextFunctions) (operations : List Operation) (store : MemoryStore)
    (visits : Visits text operations store) (kind : LongTermKind) (row : LongTermRow)
    (among : row ∈ store.tiers.readLongTerm kind) :
    Stems text (operations.flatMap Operation.proposed) kind row ∧
      row.trustLevel ∈ durableTrustLevels ∧ row.evidence ≠ [] ∧
      ∃ origin ∈ operations.flatMap Operation.proposed, origin.proposal.kind = kind ∧
        origin.Admissible text ∧ row.trustLevel = assignTrust text origin.proposal.evidence := by
  have stemmed : store.Stemmed text (operations.flatMap Operation.proposed) := by
    refine visits.invariant (fun deed store given stemmed => stemmed.perform deed given)
      (fun kind row none => absurd none List.not_mem_nil) ?_
    intro operation member store deed done origin given
    exact List.mem_flatMap.mpr ⟨operation, member, proposed_of_mem_deeds done origin given⟩
  have stems := stemmed kind row among
  obtain ⟨-, evidence, origin, given, own, admissible, trust⟩ := stems.origin
  exact ⟨stems, trust ▸ admissible.durable, evidence, origin, given, own, admissible, trust⟩

/-- A task that ends well with one candidate. -/
def Offer.operation (service : MemoryService) (offer : Offer) : Operation :=
  .applyDelta service (some offer.delta) offer.episode offer.source offer.now

/-- A lesson offered by two tasks, and so promoted. -/
def promotingRun : List Operation :=
  [newYearOffer.operation plainService, nextDayOffer.operation plainService]

def promotedLesson : LongTermRow :=
  nextDayOffer.proposal.record sampleText
    (some (newYearOffer.proposal.record sampleText none newYearOffer.context "quarantined"))
    nextDayOffer.context "active"

set_option maxRecDepth 4000 in
theorem longTerm_stems_promotingRun :
    promotedLesson.trustLevel ∈ durableTrustLevels ∧ promotedLesson.evidence ≠ [] := by
  have among : promotedLesson ∈ (({} : MemoryStore).performAll sampleText
      promotingRun).tiers.readLongTerm .semantic := by decide
  have held := longTerm_stems sampleText promotingRun _ (visits_performAll promotingRun)
    .semantic promotedLesson among
  exact ⟨held.2.1, held.2.2.1⟩

/-- A failure of a task that went well, with a remedy. -/
def remediedFailure : Operation :=
  .applyDelta plainService (some { failures := [{
      signature := "import error"
      paths := ["src/app.py"]
      remedy := some "install the extra"
      evidence := [⟨"check", "checks/unit"⟩] }] })
    { id := "ep_a", taskId := "a", createdAt := midnight "2026-01-01" 1 } .success
    (midnight "2026-01-01" 1)

/-- A candidate whose kind is a failure is promoted. -/
theorem remediedFailure_promoted :
    (({} : MemoryStore).performAll sampleText [remediedFailure]).tiers.readLongTerm .failure ≠ [] ∧
    ∀ origin ∈ remediedFailure.proposed, origin.proposal.kind = .failure := by
  refine ⟨?_, ?_⟩
  · decide
  · intro origin given
    cases List.mem_singleton.mp given
    rfl

end Orchestrator.Memory
