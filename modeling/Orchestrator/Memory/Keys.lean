import Orchestrator.Memory.Runs

/-! # The keys of the memory

A lesson is looked up by its id, a card by its canonical name and a quarantined row by
its id. As long as redaction leaves these keys alone, no two lessons of a file and no
two cards share one.
-/

namespace Orchestrator.Memory

open Orchestrator.Foundation

/-- Keys among which are all derived ids, and not the empty text. -/
structure KeySet (text : TextFunctions) (keys : Set String) : Prop where
  real : "" ∉ keys
  derived : ∀ kind subject paths, deriveLongTermId text kind subject paths ∈ keys

variable {text : TextFunctions} {keys : Set String}

/-- Redaction leaves the keys alone. -/
def MemoryService.Keeps (service : MemoryService) (keys : Set String) : Prop :=
  ∀ key ∈ keys, service.redactText key = key

/-- The names of a proposed card are keys. -/
def CandidateEntity.Named (candidate : CandidateEntity) (keys : Set String) : Prop :=
  candidate.canonicalName ∈ keys ∧ candidate.entityId ∈ keys

/-- An operation uses no other names than the keys, and its redaction leaves them alone. -/
def Operation.Within (keys : Set String) : Operation → Prop
  | .applyDelta service delta _ _ _ =>
      service.Keeps keys ∧ ∀ candidate ∈ (delta.getD {}).entities, candidate.Named keys
  | .cleanup service _ index _ _ _ _ =>
      service.Keeps keys ∧ ∀ path ∈ index.tracked, path ∈ keys

def Deed.Within (keys : Set String) : Deed → Prop
  | .snapshot _ => True
  | .episode service _ => service.Keeps keys
  | .propose service _ _ => service.Keeps keys
  | .card service _ candidate => service.Keeps keys ∧ candidate.Named keys
  | .expire service _ _ _ _ => service.Keeps keys
  | .reconcileCards service index _ _ => service.Keeps keys ∧ ∀ path ∈ index.tracked, path ∈ keys
  | .reconcile service _ _ _ => service.Keeps keys
  | .merge service _ _ => service.Keeps keys

theorem within_of_mem_deeds {operation : Operation} (within : operation.Within keys)
    {store : MemoryStore} {deed : Deed} (among : deed ∈ operation.deeds text store) :
    deed.Within keys := by
  cases operation with
  | applyDelta service delta episode source now =>
      rcases List.mem_cons.mp among with rfl | candidate
      · exact within.1
      · rcases List.mem_append.mp candidate with lesson | card
        · obtain ⟨proposal, -, rfl⟩ := List.mem_map.mp lesson
          exact within.1
        · obtain ⟨proposed, member, rfl⟩ := List.mem_map.mp card
          exact ⟨within.1, within.2 proposed member⟩
  | cleanup service config index now dryRun full clock =>
      rw [Operation.deeds] at among
      split at among
      · cases among
      · rcases List.mem_append.mp among with first | pass
        · cases dryRun with
          | true => cases first
          | false => exact List.mem_singleton.mp first ▸ trivial
        · simp only [cleanupDeeds, List.mem_cons, List.not_mem_nil, or_false] at pass
          rcases pass with rfl | rfl | rfl | rfl
          · exact within.1
          · exact within
          · exact within.1
          · exact within.1

/-! ## Redaction and keys -/

/-- The names of a stored card are keys. -/
structure EntityRow.Named (row : EntityRow) (keys : Set String) : Prop where
  id : ∃ id ∈ keys, row.entityId = some id
  path : ∀ path ∈ row.paths.head?, path ∈ keys

theorem map_eq_of_key {scrub : String → String} (kept : ∀ key ∈ keys, scrub key = key)
    {value : Option String} (keyed : ∃ id ∈ keys, value = some id) : value.map scrub = value := by
  obtain ⟨id, known, rfl⟩ := keyed
  exact congrArg some (kept id known)

theorem EntityRow.Named.redact {scrub : String → String} (kept : ∀ key ∈ keys, scrub key = key)
    {row : EntityRow} (named : row.Named keys) : (row.redact scrub).Named keys := by
  obtain ⟨⟨id, known, own⟩, path⟩ := named
  refine ⟨⟨id, known, ?_⟩, ?_⟩
  · rw [EntityRow.redact, own, Option.map_some, kept id known]
  · intro head first
    rw [EntityRow.redact, List.head?_map, Option.mem_def, Option.map_eq_some_iff] at first
    obtain ⟨old, first, rfl⟩ := first
    exact (kept old (path old first)).symm ▸ path old first

theorem LongTermRow.idOf_eq_some {row : LongTermRow} {id : String} :
    row.idOf = some id ↔ row.memoryId = some id ∧ id ≠ "" := by
  rw [LongTermRow.idOf, Option.filter_eq_some_iff, decide_eq_true_eq]

theorem EntityRow.idOf_eq_some {row : EntityRow} {id : String} :
    row.idOf = some id ↔ row.entityId = some id ∧ id ≠ "" := by
  rw [EntityRow.idOf, Option.filter_eq_some_iff, decide_eq_true_eq]

theorem PendingRow.redact_idOf {scrub : String → String} (kept : ∀ key ∈ keys, scrub key = key)
    {row : PendingRow} (keyed : ∃ id ∈ keys, row.idOf = some id) :
    (row.redact scrub).idOf = row.idOf := by
  obtain ⟨id, known, own⟩ := keyed
  rw [own]
  cases row with
  | lesson row =>
      obtain ⟨named, real⟩ := LongTermRow.idOf_eq_some.mp own
      refine LongTermRow.idOf_eq_some.mpr ⟨?_, real⟩
      rw [LongTermRow.redact, named, Option.map_some, kept id known]
  | entity row =>
      obtain ⟨named, real⟩ := EntityRow.idOf_eq_some.mp own
      refine EntityRow.idOf_eq_some.mpr ⟨?_, real⟩
      rw [EntityRow.redact, named, Option.map_some, kept id known]

/-! ## The invariant -/

/-- Lessons and cards have keys of their own, and quarantined rows have ids. -/
structure MemoryStore.Keyed (store : MemoryStore) (keys : Set String) : Prop where
  lessons : ∀ kind, Located keys LongTermRow.memoryId (store.tiers.readLongTerm kind)
  cards : Located keys EntityRow.canonicalName store.tiers.readEntities
  named : ∀ row ∈ store.tiers.readEntities, row.Named keys
  pending : ∀ row ∈ store.tiers.readPending, ∃ id ∈ keys, row.idOf = some id

variable {store : MemoryStore} {service : MemoryService}

theorem MemoryStore.Keyed.of_eq (keyed : store.Keyed keys) {after : MemoryStore}
    (lessons : after.tiers.longTerm = store.tiers.longTerm)
    (cards : after.tiers.entities = store.tiers.entities)
    (pending : after.tiers.pending = store.tiers.pending) : after.Keyed keys := by
  constructor
  · intro kind
    rw [Tiers.readLongTerm, lessons]
    exact keyed.lessons kind
  · rw [Tiers.readEntities, cards]
    exact keyed.cards
  · rw [Tiers.readEntities, cards]
    exact keyed.named
  · rw [Tiers.readPending, pending]
    exact keyed.pending

theorem located_redact (keeps : service.Keeps keys) {rows : List LongTermRow}
    (located : Located keys LongTermRow.memoryId rows) :
    Located keys LongTermRow.memoryId (rows.map (LongTermRow.redact service.redactText)) :=
  located.map fun row among => map_eq_of_key keeps (located.keyed row among)

theorem located_redact_cards (keeps : service.Keeps keys) {rows : List EntityRow}
    (located : Located keys EntityRow.canonicalName rows) :
    Located keys EntityRow.canonicalName (rows.map (EntityRow.redact service.redactText)) :=
  located.map fun row among => map_eq_of_key keeps (located.keyed row among)

theorem pending_redact (keeps : service.Keeps keys) {rows : List PendingRow}
    (all : ∀ row ∈ rows, ∃ id ∈ keys, row.idOf = some id) :
    ∀ row ∈ rows.map (PendingRow.redact service.redactText), ∃ id ∈ keys, row.idOf = some id := by
  intro row among
  obtain ⟨old, member, rfl⟩ := List.mem_map.mp among
  rw [PendingRow.redact_idOf keeps (all old member)]
  exact all old member

/-- Rows of quarantine that are kept, and one that is added. -/
theorem MemoryStore.Keyed.pending_put (keyed : store.Keyed keys) (keeps : service.Keeps keys)
    {record : PendingRow} {id : String} (known : id ∈ keys) (own : record.idOf = some id) :
    ∀ row ∈ (store.putPending service record id).tiers.readPending,
      ∃ id ∈ keys, row.idOf = some id := by
  refine pending_redact keeps fun row among => ?_
  rcases List.mem_append.mp among with old | new
  · exact keyed.pending row (List.mem_filter.mp old).1
  · exact List.mem_singleton.mp new ▸ ⟨id, known, own⟩

/-- A lessons' file may be replaced by located rows. -/
theorem MemoryStore.Keyed.lessons_update (keyed : store.Keyed keys) (keeps : service.Keeps keys)
    {after : MemoryStore} {kind : LongTermKind} {rows : List LongTermRow}
    (located : Located keys LongTermRow.memoryId rows)
    (written : after.tiers.longTerm = Function.update store.tiers.longTerm kind
      (some (rows.map (LongTermRow.redact service.redactText)))) :
    ∀ other, Located keys LongTermRow.memoryId (after.tiers.readLongTerm other) := by
  intro other
  rw [Tiers.readLongTerm, written]
  by_cases same : other = kind
  · subst same
    rw [Function.update_self]
    exact located_redact keeps located
  · rw [Function.update_of_ne same]
    exact keyed.lessons other

theorem Proposal.record_idOf (keySet : KeySet text keys) (proposal : Proposal)
    (prior : Option LongTermRow) (context : WriteContext) (status : String) :
    (PendingRow.lesson (proposal.record text prior context status)).idOf =
      some (proposal.memoryId text) :=
  LongTermRow.idOf_eq_some.mpr
    ⟨rfl, fun empty => keySet.real (empty ▸ keySet.derived _ _ proposal.scope.paths)⟩

theorem MemoryStore.Keyed.propose (keyed : store.Keyed keys) (keySet : KeySet text keys)
    (keeps : service.Keeps keys) (context : WriteContext) (proposal : Proposal) :
    (ingestLongTerm text service context store proposal).1.Keyed keys := by
  have known : proposal.memoryId text ∈ keys := keySet.derived _ _ _
  rcases ingestLongTerm_cases text service context store proposal with
    ⟨rows, -, updated, outcome⟩ | ⟨-, absent, -, outcome⟩ | ⟨-, outcome⟩
  · obtain ⟨before, row, after, old, -, -, rfl⟩ := updateFirst_eq_some updated
    rw [outcome]
    have located := keyed.lessons proposal.kind
    rw [old] at located
    have merged : Located keys LongTermRow.memoryId
        (before ++ row.merge proposal context :: after) := by
      refine located.of_sublist ?_
      rw [List.map_append, List.map_append]
      exact List.Sublist.refl _
    exact ⟨keyed.lessons_update keeps merged rfl, keyed.cards, keyed.named, keyed.pending⟩
  · have fresh := updateFirst_eq_none_iff.mp absent
    have appended (prior : Option LongTermRow) : (store.appendLongTerm service
        (proposal.record text prior context "active") (proposal.memoryId text)).Keyed keys := by
      refine ⟨fun kind => ?_, keyed.cards, keyed.named, keyed.pending⟩
      rw [MemoryStore.readLongTerm_appendLongTerm]
      split
      · rename_i own
        subst own
        have located := keyed.lessons proposal.kind
        refine located.concat known ?_ fun other among => of_decide_eq_false (fresh other among)
        exact congrArg some (keeps _ known)
      · exact keyed.lessons kind
    rw [outcome]
    dsimp only
    split
    · have base := appended (findPending store.tiers.readPending (proposal.memoryId text))
      refine ⟨base.lessons, base.cards, base.named, pending_redact keeps fun row among => ?_⟩
      exact base.pending row (List.mem_filter.mp among).1
    · exact appended _
  · rw [outcome]
    exact ⟨keyed.lessons, keyed.cards, keyed.named, keyed.pending_put keeps known
      (proposal.record_idOf keySet _ context _)⟩

theorem CandidateEntity.record_named {candidate : CandidateEntity} (named : candidate.Named keys)
    (trust : TrustLevel) (taskId status : String) :
    (candidate.record trust taskId status).Named keys := by
  refine ⟨⟨_, named.2, rfl⟩, fun path first => ?_⟩
  have head : candidate.paths.head? = some path := first
  have canonical : candidate.canonicalName = path := by
    rw [CandidateEntity.canonicalName, List.headD_eq_head?_getD, head, Option.getD_some]
  exact canonical ▸ named.1

theorem MemoryStore.Keyed.card (keyed : store.Keyed keys) (real : "" ∉ keys)
    (keeps : service.Keeps keys) (context : WriteContext) {candidate : CandidateEntity}
    (named : candidate.Named keys) :
    (ingestEntity service context store candidate).1.Keyed keys := by
  have present : candidate.entityId ≠ "" := fun empty => real (empty ▸ named.2)
  have recorded (trust : TrustLevel) (status : String) :
      (candidate.record trust context.taskId status).Named keys :=
    candidate.record_named named trust context.taskId status
  rcases ingestEntity_cases service context store candidate with
    outcome | ⟨rows, updated, outcome⟩ | ⟨absent, outcome⟩
  · rw [outcome]
    exact ⟨keyed.lessons, keyed.cards, keyed.named, keyed.pending_put keeps named.2
      (EntityRow.idOf_eq_some.mpr ⟨rfl, present⟩)⟩
  · obtain ⟨before, row, after, old, own, -, rfl⟩ := updateFirst_eq_some updated
    have own : row.canonicalName = some candidate.canonicalName := of_decide_eq_true own
    rw [outcome]
    have located := keyed.cards
    have names := keyed.named
    rw [old] at located names
    refine ⟨keyed.lessons, located_redact_cards keeps (located.of_sublist ?_), ?_, keyed.pending⟩
    · rw [List.map_append, List.map_append, List.map_cons, List.map_cons, own]
      exact List.Sublist.refl _
    · intro other among
      obtain ⟨latest, member, rfl⟩ := List.mem_map.mp among
      apply EntityRow.Named.redact keeps
      rcases List.mem_append.mp member with early | late
      · exact names latest (List.mem_append_left _ early)
      · rcases List.mem_cons.mp late with rfl | later
        · have latest := recorded (assignEntityTrust candidate.paths service.pathExists) "active"
          exact ⟨latest.id, latest.path⟩
        · exact names latest (List.mem_append_right _ (List.mem_cons_of_mem _ later))
  · have fresh := updateFirst_eq_none_iff.mp absent
    rw [outcome]
    refine ⟨keyed.lessons, ?_, ?_, keyed.pending⟩
    · refine keyed.cards.concat named.1 ?_ fun other among => of_decide_eq_false (fresh other among)
      exact congrArg some (keeps _ named.1)
    · intro other among
      rcases List.mem_append.mp among with old | new
      · exact keyed.named other old
      · exact List.mem_singleton.mp new ▸ (recorded _ _).redact keeps

theorem MemoryStore.Keyed.reconcileCards (keyed : store.Keyed keys) (real : "" ∉ keys)
    (keeps : service.Keeps keys) {index : DerivedIndex}
    (tracked : ∀ path ∈ index.tracked, path ∈ keys) (dryRun : Bool) (budget : Budget) :
    (reconcileEntities service index dryRun store budget).1.Keyed keys := by
  rcases reconcileEntities_writes service index dryRun store budget with same | ⟨-, written⟩
  · rw [same]
    exact keyed
  · let walk := reconcileRows (fun row : EntityRow => isActive row.status) (classifyEntity index)
      store.tiers.readEntities budget
    have kept : ∀ row ∈ walk.kept,
        (∃ name ∈ keys, row.canonicalName = some name) ∧ row.Named keys := by
      intro row among
      rcases mem_reconcileRows_kept among with old | ⟨old, member, -, remapped⟩
      · exact ⟨keyed.cards.keyed row old, keyed.named row old⟩
      · obtain ⟨paths, pathed, found, rfl⟩ := classifyEntity_eq_remap remapped
        obtain ⟨path, rest, given⟩ := List.exists_cons_of_ne_nil pathed
        obtain ⟨id, first⟩ := keyed.named old member
        rw [given] at found first
        obtain ⟨head, names, same | moved⟩ := DerivedIndex.remapPaths_head found
        · have known : head ∈ keys := same ▸ first path rfl
          exact ⟨⟨head, known, names⟩, id, fun other own => Option.some.inj (names ▸ own) ▸ known⟩
        · have known : head ∈ keys := tracked head moved
          exact ⟨⟨head, known, names⟩, id, fun other own => Option.some.inj (names ▸ own) ▸ known⟩
    have located : Located keys EntityRow.canonicalName (collapseEntities walk.kept) :=
      Located.collapse (fun id keeper row _ own => own)
        (mem_positionKeys real fun row among => (kept row among).1)
    have named : ∀ row ∈ collapseEntities walk.kept, row.Named keys :=
      forall_mem_collapseEntities (fun row tasks named => ⟨named.id, named.path⟩)
        fun row among => (kept row among).2
    have held : ∀ row ∈ store.tiers.readPending ++ walk.held.map PendingRow.entity,
        ∃ id ∈ keys, row.idOf = some id := by
      intro row among
      rcases List.mem_append.mp among with old | new
      · exact keyed.pending row old
      · obtain ⟨copy, member, rfl⟩ := List.mem_map.mp new
        obtain ⟨old, among, -, verdict⟩ := mem_reconcileRows_held member
        obtain ⟨id, known, own⟩ := (keyed.named old among).id
        rw [classifyEntity_eq_quarantine verdict]
        exact ⟨id, known, EntityRow.idOf_eq_some.mpr ⟨own, fun empty => real (empty ▸ known)⟩⟩
    constructor
    · intro kind
      rw [written]
      exact keyed.lessons kind
    · rw [written]
      exact located_redact_cards keeps located
    · rw [written]
      intro row among
      obtain ⟨old, member, rfl⟩ := List.mem_map.mp among
      exact (named old member).redact keeps
    · rw [written]
      dsimp only [Tiers.readPending]
      split
      · exact keyed.pending
      · exact pending_redact keeps held

theorem MemoryStore.Keyed.reconcileKind (keyed : store.Keyed keys) (keySet : KeySet text keys)
    (keeps : service.Keeps keys) (index : DerivedIndex) (dryRun : Bool) (kind : LongTermKind)
    (budget : Budget) :
    (Memory.reconcileKind text service index dryRun kind store budget).1.Keyed keys := by
  rcases reconcileKind_writes text service index dryRun store budget kind with
    same | ⟨-, written⟩
  · rw [same]
    exact keyed
  · let walk := reconcileRows (fun row : LongTermRow => isActive row.status)
      (classifyLesson text index kind) (store.tiers.readLongTerm kind) budget
    have kept : ∀ row ∈ walk.kept, ∃ id ∈ keys, row.memoryId = some id := by
      intro row among
      rcases mem_reconcileRows_kept among with old | ⟨old, member, -, remapped⟩
      · exact (keyed.lessons kind).keyed row old
      · obtain ⟨scope, paths, -, -, -, rfl⟩ := classifyLesson_eq_remap remapped
        exact ⟨_, keySet.derived _ _ _, rfl⟩
    have located : Located keys LongTermRow.memoryId (collapseByMemoryId walk.kept) :=
      Located.collapse (fun id keeper row own _ => own) (mem_positionKeys keySet.real kept)
    have held : ∀ row ∈ store.tiers.readPending ++ walk.held.map PendingRow.lesson,
        ∃ id ∈ keys, row.idOf = some id := by
      intro row among
      rcases List.mem_append.mp among with old | new
      · exact keyed.pending row old
      · obtain ⟨copy, member, rfl⟩ := List.mem_map.mp new
        obtain ⟨old, among, -, verdict⟩ := mem_reconcileRows_held member
        obtain ⟨id, known, own⟩ := (keyed.lessons kind).keyed old among
        rw [classifyLesson_eq_quarantine verdict]
        refine ⟨id, known, LongTermRow.idOf_eq_some.mpr ⟨own, ?_⟩⟩
        exact fun empty => keySet.real (empty ▸ known)
    refine ⟨keyed.lessons_update keeps located (congrArg Tiers.longTerm written), ?_, ?_, ?_⟩
    · rw [written]
      exact keyed.cards
    · rw [written]
      exact keyed.named
    · rw [written]
      dsimp only [Tiers.readPending]
      split
      · exact keyed.pending
      · exact pending_redact keeps held

theorem MemoryStore.Keyed.merge (keyed : store.Keyed keys) (keeps : service.Keeps keys)
    (kind : LongTermKind) :
    let collapsed := collapseDuplicates text (store.tiers.readLongTerm kind)
    (store.replaceLongTerm service kind collapsed
      (collapsed.filterMap LongTermRow.idOf) .merge).Keyed keys := by
  intro collapsed
  refine ⟨keyed.lessons_update keeps ?_ rfl, keyed.cards, keyed.named, keyed.pending⟩
  refine (keyed.lessons kind).of_sublist ?_
  exact collapseDuplicates_map_sublist (fun keeper row => rfl) _

/-- Every deed within the keys keeps lessons and cards keyed. -/
theorem MemoryStore.Keyed.perform (keyed : store.Keyed keys) (keySet : KeySet text keys)
    {deed : Deed} (within : deed.Within keys) : (deed.perform text store).Keyed keys := by
  cases deed with
  | snapshot label => exact ⟨keyed.lessons, keyed.cards, keyed.named, keyed.pending⟩
  | episode service record => exact ⟨keyed.lessons, keyed.cards, keyed.named, keyed.pending⟩
  | propose service context proposal => exact keyed.propose keySet within context proposal
  | card service context candidate => exact keyed.card keySet.real within.1 context within.2
  | expire service config now dryRun budget =>
      obtain ⟨lessons, cards, pending⟩ := expireEpisodes_others service config now dryRun store
        budget
      exact keyed.of_eq lessons cards pending
  | reconcileCards service index dryRun budget =>
      exact keyed.reconcileCards keySet.real within.1 within.2 dryRun budget
  | reconcile service index dryRun budget =>
      have kept (kind : LongTermKind) (store : MemoryStore) (budget : Budget)
          (keyed : store.Keyed keys) :
          (Memory.reconcileKind text service index dryRun kind store budget).1.Keyed keys :=
        keyed.reconcileKind keySet within index dryRun kind budget
      exact reconcileLessons_keeps kept _ budget keyed
  | merge service dryRun budget =>
      have kept (kind : LongTermKind) (store : MemoryStore) (keyed : store.Keyed keys) :
          let collapsed := collapseDuplicates text (store.tiers.readLongTerm kind)
          (store.replaceLongTerm service kind collapsed
            (collapsed.filterMap LongTermRow.idOf) .merge).Keyed keys :=
        keyed.merge within kind
      exact mergeLongTermDuplicates_keeps kept _ budget keyed

end Orchestrator.Memory
