import Orchestrator.Memory.Cleanup

/-! # Runs of the memory

Deltas and cleanups in any order, from an empty store. An operation is a sequence of
deeds, each one candidate or one pass; a run visits the store between every two of them.
-/

namespace Orchestrator.Memory

open Orchestrator.Foundation

/-- A call of `apply_delta`, or of `run_once` of a cleanup job. -/
inductive Operation where
  | applyDelta (service : MemoryService) (delta : Option CandidateDelta) (episode : EpisodeRecord)
      (source : WriteSource) (now : Stamp)
  | cleanup (service : MemoryService) (config : MemoryConfig) (index : DerivedIndex) (now : Stamp)
      (dryRun full : Bool) (clock : Nat → Bool)

/-- A part of an operation. -/
inductive Deed where
  | snapshot (label : String)
  | episode (service : MemoryService) (record : EpisodeRecord)
  | propose (service : MemoryService) (context : WriteContext) (proposal : Proposal)
  | card (service : MemoryService) (context : WriteContext) (candidate : CandidateEntity)
  | expire (service : MemoryService) (config : MemoryConfig) (now : Stamp) (dryRun : Bool)
      (budget : Budget)
  | reconcileCards (service : MemoryService) (index : DerivedIndex) (dryRun : Bool)
      (budget : Budget)
  | reconcile (service : MemoryService) (index : DerivedIndex) (dryRun : Bool) (budget : Budget)
  | merge (service : MemoryService) (dryRun : Bool) (budget : Budget)

variable (text : TextFunctions)

def Operation.perform (store : MemoryStore) : Operation → MemoryStore
  | .applyDelta service delta episode source now =>
      (Memory.applyDelta text service store delta episode source now).1
  | .cleanup service config index now dryRun full clock =>
      (runOnce text service config index now dryRun clock full store).1

/-- One operation after another. -/
def MemoryStore.performAll (store : MemoryStore) (operations : List Operation) : MemoryStore :=
  operations.foldl (Operation.perform text) store

def Deed.perform (store : MemoryStore) : Deed → MemoryStore
  | .snapshot label => store.snapshot label
  | .episode service record => store.appendEpisode service
      ⟨some record.id, some record.taskId, some record.createdAt, record.expiresAt⟩ record.id
  | .propose service context proposal => (ingestLongTerm text service context store proposal).1
  | .card service context candidate => (ingestEntity service context store candidate).1
  | .expire service config now dryRun budget =>
      (expireEpisodes service config now dryRun store budget).1
  | .reconcileCards service index dryRun budget =>
      (reconcileEntities service index dryRun store budget).1
  | .reconcile service index dryRun budget =>
      (reconcileLessons text service index dryRun LongTermKind.all store budget).1
  | .merge service dryRun budget =>
      (mergeLongTermDuplicates text service dryRun LongTermKind.all store budget).1

/-- One deed after another. -/
def MemoryStore.after (store : MemoryStore) (deeds : List Deed) : MemoryStore :=
  deeds.foldl (Deed.perform text) store

/-- The lessons and failures of a delta, in the order of the funnel. -/
def CandidateDelta.proposals (delta : CandidateDelta) : List Proposal :=
  delta.lessons.map CandidateLesson.proposal ++ delta.failures.map CandidateFailure.proposal

/-- The deeds of a pass that starts from a store. -/
def cleanupDeeds (service : MemoryService) (config : MemoryConfig) (index : DerivedIndex)
    (now : Stamp) (dryRun : Bool) (store : MemoryStore) (budget : Budget) : List Deed :=
  let expired := expireEpisodes service config now dryRun store budget
  let cards := reconcileEntities service index dryRun expired.1 expired.2.1
  let lessons := reconcileLessons text service index dryRun LongTermKind.all cards.1 cards.2.1
  [.expire service config now dryRun budget, .reconcileCards service index dryRun expired.2.1,
    .reconcile service index dryRun cards.2.1, .merge service dryRun lessons.2.1]

/-- The deeds of an operation on a store. -/
def Operation.deeds (store : MemoryStore) : Operation → List Deed
  | .applyDelta service delta episode source now =>
      let context : WriteContext := ⟨source, now, episode.taskId⟩
      let delta := delta.getD {}
      .episode service episode :: (delta.proposals.map (.propose service context) ++
        delta.entities.map (.card service context))
  | .cleanup service config index now dryRun full clock =>
      let label := safeLabel text ("cleanup-" ++ now.text)
      let started := if dryRun then store else store.snapshot label
      if !store.tiers.anyFile then []
      else (if dryRun then [] else [.snapshot label]) ++
        cleanupDeeds text service config index now dryRun started (config.budget clock full)

/-- The deeds of operations that start from a store. -/
def deedsOf (store : MemoryStore) : List Operation → List Deed
  | [] => []
  | operation :: rest =>
      operation.deeds text store ++ deedsOf (operation.perform text store) rest

/-- A store that operations pass through, from an empty one on. -/
def Visits (operations : List Operation) (store : MemoryStore) : Prop :=
  ∃ done, done <+: deedsOf text {} operations ∧ store = ({} : MemoryStore).after text done

/-! ## Operations as deeds -/

variable {text}

@[simp] theorem after_nil (store : MemoryStore) : store.after text [] = store := rfl

@[simp] theorem after_cons (store : MemoryStore) (deed : Deed) (rest : List Deed) :
    store.after text (deed :: rest) = (deed.perform text store).after text rest := rfl

theorem after_append (store : MemoryStore) (first second : List Deed) :
    store.after text (first ++ second) = (store.after text first).after text second :=
  List.foldl_append

/-- A walk of the funnel is one deed for each candidate. -/
theorem ingestAll_eq_after {β : Type} {ingest : MemoryStore → β → MemoryStore × Ingested}
    {deed : β → Deed} (same : ∀ store candidate,
      (ingest store candidate).1 = (deed candidate).perform text store)
    (state : MemoryStore × ApplyResult) (candidates : List β) :
    (ingestAll ingest state candidates).1 = state.1.after text (candidates.map deed) := by
  induction candidates generalizing state with
  | nil => rfl
  | cons candidate rest ih =>
      rw [ingestAll, List.foldl_cons, ← ingestAll, ih, List.map_cons, after_cons, ← same]

theorem applyDelta_eq_after (service : MemoryService) (store : MemoryStore)
    (delta : Option CandidateDelta) (episode : EpisodeRecord) (source : WriteSource)
    (now : Stamp) : (applyDelta text service store delta episode source now).1 =
      store.after text ((Operation.applyDelta service delta episode source now).deeds text
        store) := by
  cases delta with
  | none => rfl
  | some delta =>
      let context : WriteContext := ⟨source, now, episode.taskId⟩
      have lessons (state : MemoryStore × ApplyResult) :
          (ingestAll (ingestLongTerm text service context) state delta.proposals).1 =
            state.1.after text (delta.proposals.map (.propose service context)) :=
        ingestAll_eq_after (fun _ _ => rfl) state _
      have cards (state : MemoryStore × ApplyResult) :
          (ingestAll (ingestEntity service context) state delta.entities).1 =
            state.1.after text (delta.entities.map (.card service context)) :=
        ingestAll_eq_after (fun _ _ => rfl) state _
      rw [applyDelta, cards, ← CandidateDelta.proposals, lessons, Operation.deeds, after_cons,
        after_append]
      rfl

theorem cleanupPasses_eq_after (service : MemoryService) (config : MemoryConfig)
    (index : DerivedIndex) (now : Stamp) (dryRun : Bool) (store : MemoryStore)
    (budget : Budget) : (cleanupPasses text service config index now dryRun store budget).1 =
      store.after text (cleanupDeeds text service config index now dryRun store budget) := by
  unfold cleanupPasses cleanupDeeds
  simp only [after_cons, after_nil, Deed.perform]

/-- The store a pass starts from. -/
def MemoryStore.started (text : TextFunctions) (now : Stamp) (dryRun : Bool)
    (store : MemoryStore) : MemoryStore :=
  if dryRun then store else store.snapshot (safeLabel text ("cleanup-" ++ now.text))

@[simp] theorem MemoryStore.started_tiers (now : Stamp) (dryRun : Bool) (store : MemoryStore) :
    (store.started text now dryRun).tiers = store.tiers := by
  cases dryRun <;> rfl

@[simp] theorem MemoryStore.started_audit (now : Stamp) (dryRun : Bool) (store : MemoryStore) :
    (store.started text now dryRun).audit = store.audit := by
  cases dryRun <;> rfl

/-- A cleanup is its passes, if there is any file. -/
theorem runOnce_store (service : MemoryService) (config : MemoryConfig) (index : DerivedIndex)
    (now : Stamp) (dryRun full : Bool) (clock : Nat → Bool) (store : MemoryStore) :
    (runOnce text service config index now dryRun clock full store).1 =
      if store.tiers.anyFile then
        (cleanupPasses text service config index now dryRun (store.started text now dryRun)
          (config.budget clock full)).1
      else store := by
  unfold runOnce MemoryStore.started
  by_cases some : store.tiers.anyFile = true
  · rw [if_pos some, if_neg (by simp [some])]
  · rw [if_neg some, if_pos (by simp [some])]

/-- An operation is the sequence of its deeds. -/
theorem perform_eq_after (store : MemoryStore) (operation : Operation) :
    operation.perform text store = store.after text (operation.deeds text store) := by
  cases operation with
  | applyDelta service delta episode source now =>
      exact applyDelta_eq_after service store delta episode source now
  | cleanup service config index now dryRun full clock =>
      rw [Operation.perform, runOnce, Operation.deeds]
      by_cases empty : (!store.tiers.anyFile) = true
      · rw [if_pos empty, if_pos empty]
        rfl
      · rw [if_neg empty, if_neg empty, after_append]
        cases dryRun <;> exact cleanupPasses_eq_after _ _ _ _ _ _ _

theorem performAll_eq_after (store : MemoryStore) (operations : List Operation) :
    store.performAll text operations = store.after text (deedsOf text store operations) := by
  induction operations generalizing store with
  | nil => rfl
  | cons operation rest ih =>
      rw [deedsOf, after_append, ← perform_eq_after, ← ih]
      rfl

/-- The final store is visited. -/
theorem visits_performAll (operations : List Operation) :
    Visits text operations (({} : MemoryStore).performAll text operations) :=
  ⟨_, List.prefix_refl _, performAll_eq_after _ _⟩

/-! ## Invariants -/

/-- What every allowed deed keeps holds after any number of them. -/
theorem after_invariant {holds : MemoryStore → Prop} {allowed : Deed → Prop}
    (kept : ∀ deed store, allowed deed → holds store → holds (deed.perform text store))
    {store : MemoryStore} (start : holds store) {deeds : List Deed}
    (all : ∀ deed ∈ deeds, allowed deed) : holds (store.after text deeds) := by
  induction deeds generalizing store with
  | nil => exact start
  | cons deed rest ih =>
      obtain ⟨here, later⟩ := List.forall_mem_cons.mp all
      exact ih (kept deed store here start) later

/-- The deeds of operations are allowed when those of each are, on any store. -/
theorem forall_mem_deedsOf {allowed : Deed → Prop} {operations : List Operation}
    (each : ∀ operation ∈ operations, ∀ store, ∀ deed ∈ operation.deeds text store, allowed deed)
    (store : MemoryStore) : ∀ deed ∈ deedsOf text store operations, allowed deed := by
  induction operations generalizing store with
  | nil => exact fun deed none => absurd none List.not_mem_nil
  | cons operation rest ih =>
      obtain ⟨here, later⟩ := List.forall_mem_cons.mp each
      intro deed among
      rcases List.mem_append.mp among with first | second
      · exact here store deed first
      · exact ih later _ deed second

/-- What every allowed deed keeps holds of every store visited. -/
theorem Visits.invariant {holds : MemoryStore → Prop} {allowed : Deed → Prop}
    (kept : ∀ deed store, allowed deed → holds store → holds (deed.perform text store))
    (start : holds {}) {operations : List Operation}
    (each : ∀ operation ∈ operations, ∀ store, ∀ deed ∈ operation.deeds text store, allowed deed)
    {store : MemoryStore} (visits : Visits text operations store) : holds store := by
  obtain ⟨done, early, rfl⟩ := visits
  exact after_invariant kept start fun deed among =>
    forall_mem_deedsOf each {} deed (early.subset among)

/-! ## Passes over the kinds -/

/-- What the walk over one kind keeps, the walk over them all keeps. -/
theorem reconcileLessons_keeps {service : MemoryService} {index : DerivedIndex} {dryRun : Bool}
    {holds : MemoryStore → Prop} (kept : ∀ kind store budget, holds store →
      holds (reconcileKind text service index dryRun kind store budget).1)
    (kinds : List LongTermKind) {store : MemoryStore} (budget : Budget) (start : holds store) :
    holds (reconcileLessons text service index dryRun kinds store budget).1 := by
  induction kinds generalizing store budget with
  | nil => exact start
  | cons kind kinds ih =>
      unfold reconcileLessons
      dsimp only
      split
      · exact start
      · split
        · exact ih _ start
        · exact ih _ (kept kind store _ start)

/-- What the merge of one file keeps, the merge of them all keeps. -/
theorem mergeLongTermDuplicates_keeps {service : MemoryService} {dryRun : Bool}
    {holds : MemoryStore → Prop} (kept : ∀ kind store, holds store →
      let collapsed := collapseDuplicates text (store.tiers.readLongTerm kind)
      holds (store.replaceLongTerm service kind collapsed
        (collapsed.filterMap LongTermRow.idOf) .merge))
    (kinds : List LongTermKind) {store : MemoryStore} (budget : Budget) (start : holds store) :
    holds (mergeLongTermDuplicates text service dryRun kinds store budget).1 := by
  induction kinds generalizing store budget with
  | nil => exact start
  | cons kind kinds ih =>
      unfold mergeLongTermDuplicates
      dsimp only
      split
      · exact start
      · split
        · exact ih _ start
        · apply ih
          split
          · exact start
          · exact kept kind store start

/-- Every row a walk keeps is an old row, or an active old one remapped. -/
theorem mem_reconcileRows_kept {α : Type} {active : α → Bool} {classify : α → Verdict α}
    {rows : List α} {budget : Budget} {row : α}
    (among : row ∈ (reconcileRows active classify rows budget).kept) :
    row ∈ rows ∨ ∃ old ∈ rows, active old = true ∧ classify old = .remap row := by
  induction rows generalizing budget with
  | nil => cases among
  | cons first rest ih =>
      have later : ∀ {budget}, row ∈ (reconcileRows active classify rest budget).kept →
          row ∈ first :: rest ∨
            ∃ old ∈ first :: rest, active old = true ∧ classify old = .remap row := by
        intro budget found
        rcases ih found with old | ⟨old, member, acts, remapped⟩
        · exact .inl (List.mem_cons_of_mem _ old)
        · exact .inr ⟨old, List.mem_cons_of_mem _ member, acts, remapped⟩
      rw [reconcileRows] at among
      dsimp only at among
      split at among
      · rename_i acts
        have live := (Bool.and_eq_true_iff.mp acts).2
        split at among
        · rcases List.mem_cons.mp among with rfl | found
          · exact .inl List.mem_cons_self
          · exact later found
        · rename_i moved verdict
          rcases List.mem_cons.mp among with rfl | found
          · exact .inr ⟨first, List.mem_cons_self, live, verdict⟩
          · exact later found
        · exact later among
      · rcases List.mem_cons.mp among with rfl | found
        · exact .inl List.mem_cons_self
        · exact later found

/-- Every row a walk holds back is the quarantine copy of an active old one. -/
theorem mem_reconcileRows_held {α : Type} {active : α → Bool} {classify : α → Verdict α}
    {rows : List α} {budget : Budget} {row : α}
    (among : row ∈ (reconcileRows active classify rows budget).held) :
    ∃ old ∈ rows, active old = true ∧ classify old = .quarantine row := by
  induction rows generalizing budget with
  | nil => cases among
  | cons first rest ih =>
      have later : ∀ {budget}, row ∈ (reconcileRows active classify rest budget).held →
          ∃ old ∈ first :: rest, active old = true ∧ classify old = .quarantine row := by
        intro budget found
        obtain ⟨old, member, acts, held⟩ := ih found
        exact ⟨old, List.mem_cons_of_mem _ member, acts, held⟩
      rw [reconcileRows] at among
      dsimp only at among
      split at among
      · rename_i acts
        have live := (Bool.and_eq_true_iff.mp acts).2
        split at among
        · exact later among
        · exact later among
        · rename_i held verdict
          rcases List.mem_cons.mp among with rfl | found
          · exact ⟨first, List.mem_cons_self, live, verdict⟩
          · exact later found
      · exact later among

/-! ## What a pass writes -/

section Writes

variable (text) (service : MemoryService) (config : MemoryConfig) (index : DerivedIndex)
  (now : Stamp) (dryRun : Bool) (store : MemoryStore) (budget : Budget)

theorem ingestEntity_longTerm (context : WriteContext) (candidate : CandidateEntity) :
    (ingestEntity service context store candidate).1.tiers.longTerm = store.tiers.longTerm := by
  rcases ingestEntity_cases service context store candidate with
    outcome | ⟨rows, -, outcome⟩ | ⟨-, outcome⟩
  all_goals exact congrArg (fun result => result.1.tiers.longTerm) outcome

/-- An expiry changes nothing or writes the rows it does not drop. -/
theorem expireEpisodes_writes :
    let rows := store.tiers.readEpisodes
    let take := (budget.scan rows.length).allowEdits (expiredEpisodes config now rows).length
    let dropIds := ((expiredEpisodes config now rows).take take).map EpisodeRow.idText
    (expireEpisodes service config now dryRun store budget).1 = store ∨ dryRun = false ∧
      (expireEpisodes service config now dryRun store budget).1.tiers = { store.tiers with
        recent := some ((rows.filter fun row => row.idText ∉ dropIds).map
          (EpisodeRow.redact service.redactText)) } := by
  unfold expireEpisodes
  dsimp only
  split
  · exact .inl rfl
  · split
    · exact .inl rfl
    · cases dryRun with
      | true => exact .inl rfl
      | false => exact .inr ⟨rfl, rfl⟩

theorem ite_replacePending_tiers {condition : Prop} [Decidable condition] (rows : List PendingRow)
    (ids : List String) (action : AuditAction) :
    (if condition then store else store.replacePending service rows ids action).tiers =
      { store.tiers with
        pending := if condition then store.tiers.pending
          else some (rows.map (PendingRow.redact service.redactText)) } := by
  split <;> rfl

/-- A walk over the cards changes nothing or writes those kept, and appends the others to
quarantine. -/
theorem reconcileEntities_writes :
    let walk := reconcileRows (fun row : EntityRow => isActive row.status) (classifyEntity index)
      store.tiers.readEntities budget
    (reconcileEntities service index dryRun store budget).1 = store ∨ dryRun = false ∧
      (reconcileEntities service index dryRun store budget).1.tiers = { store.tiers with
        entities := some ((collapseEntities walk.kept).map (EntityRow.redact service.redactText))
        pending := if walk.held = [] then store.tiers.pending
          else some ((store.tiers.readPending ++ walk.held.map PendingRow.entity).map
            (PendingRow.redact service.redactText)) } := by
  unfold reconcileEntities
  dsimp only
  split
  · exact .inl rfl
  · split
    · exact .inl rfl
    · cases dryRun with
      | true => exact .inl rfl
      | false => exact .inr ⟨rfl, ite_replacePending_tiers service _ _ _ _⟩

/-- A walk over lessons changes nothing or writes those kept, and appends the others to
quarantine. -/
theorem reconcileKind_writes (kind : LongTermKind) :
    let walk := reconcileRows (fun row : LongTermRow => isActive row.status)
      (classifyLesson text index kind) (store.tiers.readLongTerm kind) budget
    (reconcileKind text service index dryRun kind store budget).1 = store ∨ dryRun = false ∧
      (reconcileKind text service index dryRun kind store budget).1.tiers = { store.tiers with
        longTerm := Function.update store.tiers.longTerm kind
          (some ((collapseByMemoryId walk.kept).map (LongTermRow.redact service.redactText)))
        pending := if walk.held = [] then store.tiers.pending
          else some ((store.tiers.readPending ++ walk.held.map PendingRow.lesson).map
            (PendingRow.redact service.redactText)) } := by
  unfold reconcileKind
  dsimp only
  split
  · exact .inl rfl
  · cases dryRun with
    | true => exact .inl rfl
    | false => exact .inr ⟨rfl, ite_replacePending_tiers service _ _ _ _⟩

/-- An expiry writes episodes only. -/
theorem expireEpisodes_others :
    let after := (expireEpisodes service config now dryRun store budget).1
    after.tiers.longTerm = store.tiers.longTerm ∧ after.tiers.entities = store.tiers.entities ∧
      after.tiers.pending = store.tiers.pending := by
  rcases expireEpisodes_writes service config now dryRun store budget with same | ⟨-, written⟩
  · rw [same]
    exact ⟨rfl, rfl, rfl⟩
  · dsimp only
    rw [written]
    exact ⟨rfl, rfl, rfl⟩

/-- A walk over the cards writes no episode and no lesson. -/
theorem reconcileEntities_others :
    let after := (reconcileEntities service index dryRun store budget).1
    after.tiers.recent = store.tiers.recent ∧ after.tiers.longTerm = store.tiers.longTerm := by
  rcases reconcileEntities_writes service index dryRun store budget with same | ⟨-, written⟩
  · rw [same]
    exact ⟨rfl, rfl⟩
  · dsimp only
    rw [written]
    exact ⟨rfl, rfl⟩

/-- A merge writes lessons only. -/
theorem mergeLongTermDuplicates_others (kinds : List LongTermKind) :
    let after := (mergeLongTermDuplicates text service dryRun kinds store budget).1
    after.tiers.recent = store.tiers.recent ∧ after.tiers.entities = store.tiers.entities ∧
      after.tiers.pending = store.tiers.pending := by
  let others (after : MemoryStore) : Prop := after.tiers.recent = store.tiers.recent ∧
    after.tiers.entities = store.tiers.entities ∧ after.tiers.pending = store.tiers.pending
  have start : others store := ⟨rfl, rfl, rfl⟩
  exact mergeLongTermDuplicates_keeps (fun _ _ unchanged => unchanged) kinds budget start

/-- A walk over lessons writes no episode and no card. -/
theorem reconcileLessons_others (kinds : List LongTermKind) :
    let after := (reconcileLessons text service index dryRun kinds store budget).1
    after.tiers.recent = store.tiers.recent ∧ after.tiers.entities = store.tiers.entities := by
  let others (after : MemoryStore) : Prop := after.tiers.recent = store.tiers.recent ∧
    after.tiers.entities = store.tiers.entities
  have start : others store := ⟨rfl, rfl⟩
  refine reconcileLessons_keeps (fun kind before budget unchanged => ?_) kinds budget start
  rcases reconcileKind_writes text service index dryRun before budget kind with
    same | ⟨-, written⟩
  · rw [same]
    exact unchanged
  · exact ⟨(congrArg Tiers.recent written).trans unchanged.1,
      (congrArg Tiers.entities written).trans unchanged.2⟩

end Writes

/-! ## Collapsed files -/

theorem positionKeys_map_snd {α : Type} (key : α → Option String) (rows : List α) :
    (positionKeys key rows).map Prod.snd = rows := by
  rw [positionKeys, List.map_map]
  exact List.zipIdx_map_fst 0 rows

theorem subjectKeys_map_snd (text : TextFunctions) (rows : List LongTermRow) :
    (subjectKeys text rows).map Prod.snd = rows := by
  rw [subjectKeys, List.map_map]
  exact List.zipIdx_map_fst 0 rows

/-- What absorption leaves as it was in the keeper is taken from lessons in their order. -/
theorem collapseDuplicates_map_sublist {β : Type} {project : LongTermRow → β}
    (same : ∀ keeper row : LongTermRow, project (keeper.absorb row) = project keeper)
    (rows : List LongTermRow) :
    ((collapseDuplicates text rows).map project).Sublist (rows.map project) := by
  have fewer := collapse_map_sublist same (subjectKeys text rows)
  have all : ((subjectKeys text rows).map Prod.snd).map project = rows.map project :=
    congrArg (List.map project) (subjectKeys_map_snd text rows)
  rw [List.map_map] at all
  rw [collapseDuplicates, List.map_map, ← all]
  exact fewer

/-- Rows with keys of their own are keyed by them. -/
theorem mem_positionKeys {α : Type} {keys : Set String} (real : "" ∉ keys)
    {key : α → Option String} {rows : List α} (all : ∀ row ∈ rows, ∃ id ∈ keys, key row = some id) :
    ∀ entry ∈ positionKeys key rows, entry.1 ∈ keys ∧ key entry.2 = some entry.1 := by
  intro entry among
  obtain ⟨⟨row, position⟩, member, rfl⟩ := List.mem_map.mp among
  obtain ⟨id, known, own⟩ := all row (List.fst_mem_of_mem_zipIdx member)
  have named : id ≠ "" := fun empty => real (empty ▸ known)
  dsimp only
  rw [own, Option.filter_some, if_pos (decide_eq_true named), Option.getD_some]
  exact ⟨known, rfl⟩

/-- What holds of cards, whatever tasks have seen them, holds of those left. -/
theorem forall_mem_collapseEntities {holds : EntityRow → Prop}
    (closed : ∀ row tasks, holds row → holds { row with lastSeenTaskIds := tasks })
    {rows : List EntityRow} (all : ∀ row ∈ rows, holds row) :
    ∀ row ∈ collapseEntities rows, holds row := by
  intro row among
  obtain ⟨entry, left, rfl⟩ := List.mem_map.mp among
  have keyed : ∀ entry ∈ positionKeys EntityRow.canonicalName rows, holds entry.2 := by
    intro entry keyed
    obtain ⟨⟨row, position⟩, member, rfl⟩ := List.mem_map.mp keyed
    exact all row (List.fst_mem_of_mem_zipIdx member)
  exact forall_mem_collapse (fun _ keeper row _ latest => closed row _ latest) keyed entry left

/-- What holds of lessons, and of one that absorbs another, holds of those left by id. -/
theorem forall_mem_collapseByMemoryId {holds : LongTermRow → Prop}
    (closed : ∀ keeper row, holds keeper → holds row → holds (keeper.absorb row))
    {rows : List LongTermRow} (all : ∀ row ∈ rows, holds row) :
    ∀ row ∈ collapseByMemoryId rows, holds row := by
  intro row among
  obtain ⟨entry, left, rfl⟩ := List.mem_map.mp among
  have keyed : ∀ entry ∈ positionKeys LongTermRow.memoryId rows, holds entry.2 := by
    intro entry keyed
    obtain ⟨⟨row, position⟩, member, rfl⟩ := List.mem_map.mp keyed
    exact all row (List.fst_mem_of_mem_zipIdx member)
  exact forall_mem_collapse (fun _ => closed) keyed entry left

/-- What holds of lessons, and of one that absorbs another, holds of those left by subject. -/
theorem forall_mem_collapseDuplicates {holds : LongTermRow → Prop}
    (closed : ∀ keeper row, holds keeper → holds row → holds (keeper.absorb row))
    {rows : List LongTermRow} (all : ∀ row ∈ rows, holds row) :
    ∀ row ∈ collapseDuplicates text rows, holds row := by
  intro row among
  obtain ⟨entry, left, rfl⟩ := List.mem_map.mp among
  have keyed : ∀ entry ∈ subjectKeys text rows, holds entry.2 := by
    intro entry keyed
    obtain ⟨⟨row, position⟩, member, rfl⟩ := List.mem_map.mp keyed
    exact all row (List.fst_mem_of_mem_zipIdx member)
  exact forall_mem_collapse (fun _ => closed) keyed entry left

end Orchestrator.Memory
