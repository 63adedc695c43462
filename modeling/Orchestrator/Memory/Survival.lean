import Orchestrator.Memory.Runs

/-! # What a cleanup keeps

A lesson lives on in its file, as itself or in the keeper it was merged into, or as a
copy in quarantine; its evidence and its tasks go with it.
-/

namespace Orchestrator.Memory

open Orchestrator.Foundation

/-- The key of a lesson at a position of its file. -/
def keyAt (row : LongTermRow) (position : Nat) : String :=
  (row.memoryId.filter fun id => id ≠ "").getD ("\x00" ++ toString position)

/-- Two lessons of a file have the same key. -/
def SameId (keeper other : LongTermRow) : Prop :=
  ∃ first second, first ≠ second ∧ keyAt keeper first = keyAt other second

/-- Two lessons have the same subject, up to case and blanks. -/
def SameSubject (text : TextFunctions) (keeper other : LongTermRow) : Prop :=
  ∃ first second, keeper.subject = some first ∧ other.subject = some second ∧
    normalizeSubject text first = normalizeSubject text second

variable (text : TextFunctions) (index : DerivedIndex) (scrub : String → String)
  (kind : LongTermKind)

/-- How a lesson lives on in another: redacted, moved, with what it has absorbed, or merged into a
keeper of its id or its subject. -/
inductive Lives (row : LongTermRow) : Bool → LongTermRow → Prop
  | kept : Lives row false row
  | redacted {merged : Bool} {later : LongTermRow} (lives : Lives row merged later) :
      Lives row merged (later.redact scrub)
  | remapped {merged : Bool} {later moved : LongTermRow} (lives : Lives row merged later)
      (verdict : classifyLesson text index kind later = .remap moved) : Lives row merged moved
  | absorbs {merged : Bool} {later : LongTermRow} (other : LongTermRow)
      (lives : Lives row merged later) : Lives row merged (later.absorb other)
  | absorbed {merged : Bool} {later : LongTermRow} (keeper : LongTermRow)
      (lives : Lives row merged later)
      (same : SameId keeper later ∨ SameSubject text keeper later) :
      Lives row true (keeper.absorb later)

/-- A row of quarantine is the copy of a lesson in which another lives on. -/
inductive Held (row : LongTermRow) : PendingRow → Prop
  | copy {merged : Bool} {later : LongTermRow}
      (lives : Lives text index scrub kind row merged later) :
      Held row (.lesson { later with status := some "quarantined" })
  | redacted {held : PendingRow} (copy : Held row held) : Held row (held.redact scrub)

/-- A store in which a lesson lives on. -/
def Persists (row : LongTermRow) (store : MemoryStore) : Prop :=
  (∃ merged, ∃ later ∈ store.tiers.readLongTerm kind,
    Lives text index scrub kind row merged later) ∨
  ∃ held ∈ store.tiers.readPending, Held text index scrub kind row held

variable {text index scrub kind} {row : LongTermRow}

/-! ## Evidence and tasks -/

theorem mem_unionEvidence {known new : List Evidence} {item : Evidence} :
    item ∈ unionEvidence known new ↔ item ∈ known ∨ item ∈ new := by
  unfold unionEvidence
  induction new generalizing known with
  | nil => simp
  | cons first rest ih =>
      rw [List.foldl_cons, ih, List.mem_cons]
      by_cases among : first ∈ known
      · rw [if_pos among]
        constructor
        · exact Or.imp_right .inr
        · rintro (old | rfl | later)
          · exact .inl old
          · exact .inl among
          · exact .inr later
      · rw [if_neg among, List.mem_append, List.mem_singleton, or_assoc]

theorem mem_unionTasks {first second : List String} {task : String} :
    task ∈ unionTasks first second ↔ task ∈ first ∨ task ∈ second := by
  rw [unionTasks, List.mem_eraseDups, List.mem_append]

/-- A lesson has the evidence and the tasks of another, as far as redaction leaves them. -/
structure Carries (scrub : String → String) (row later : LongTermRow) : Prop where
  evidence : ∀ item ∈ row.evidence, ∃ times, (Evidence.redact scrub)^[times] item ∈ later.evidence
  tasks : ∀ task ∈ row.seenTaskIds, ∃ times, scrub^[times] task ∈ later.seenTaskIds

theorem Carries.redact {later : LongTermRow} (carries : Carries scrub row later) :
    Carries scrub row (later.redact scrub) where
  evidence item among := by
    obtain ⟨times, found⟩ := carries.evidence item among
    refine ⟨times + 1, ?_⟩
    rw [Function.iterate_succ_apply']
    exact List.mem_map_of_mem found
  tasks task among := by
    obtain ⟨times, found⟩ := carries.tasks task among
    refine ⟨times + 1, ?_⟩
    rw [Function.iterate_succ_apply']
    exact List.mem_map_of_mem found

/-- Wherever a lesson lives on, its evidence and its tasks are there. -/
theorem Lives.carries {merged : Bool} {later : LongTermRow}
    (lives : Lives text index scrub kind row merged later) : Carries scrub row later := by
  induction lives with
  | kept => exact ⟨fun item among => ⟨0, among⟩, fun task among => ⟨0, among⟩⟩
  | redacted lives ih => exact ih.redact
  | remapped lives verdict ih =>
      obtain ⟨scope, paths, -, -, -, rfl⟩ := classifyLesson_eq_remap verdict
      exact ⟨ih.evidence, ih.tasks⟩
  | absorbs other lives ih =>
      exact ⟨fun item among => (ih.evidence item among).imp fun _ => mem_unionEvidence.mpr ∘ .inl,
        fun task among => (ih.tasks task among).imp fun _ => mem_unionTasks.mpr ∘ .inl⟩
  | absorbed keeper lives same ih =>
      exact ⟨fun item among => (ih.evidence item among).imp fun _ => mem_unionEvidence.mpr ∘ .inr,
        fun task among => (ih.tasks task among).imp fun _ => mem_unionTasks.mpr ∘ .inr⟩

/-- A lesson that was not merged keeps its subject, its statement and its state, as far as
redaction leaves them. -/
theorem Lives.wording {later : LongTermRow} {merged : Bool}
    (lives : Lives text index scrub kind row merged later) (itself : merged = false) :
    later.trustLevel = row.trustLevel ∧ ∃ times,
      later.subject = row.subject.map scrub^[times] ∧
      later.statement = row.statement.map scrub^[times] ∧
      later.status = row.status.map scrub^[times] := by
  induction lives with
  | kept => exact ⟨rfl, 0, by simp, by simp, by simp⟩
  | redacted lives ih =>
      obtain ⟨trust, times, subject, statement, status⟩ := ih itself
      refine ⟨trust, times + 1, ?_, ?_, ?_⟩
      · rw [LongTermRow.redact, subject, Option.map_map, Function.iterate_succ']
      · rw [LongTermRow.redact, statement, Option.map_map, Function.iterate_succ']
      · rw [LongTermRow.redact, status, Option.map_map, Function.iterate_succ']
  | remapped lives verdict ih =>
      obtain ⟨scope, paths, -, -, -, rfl⟩ := classifyLesson_eq_remap verdict
      exact ih itself
  | absorbs other lives ih => exact ih itself
  | absorbed keeper lives same => cases itself

/-- A lesson is represented by one in which it lives on: with its evidence and its tasks and, unless
it was merged into that one, with its own wording. -/
structure Represents (text : TextFunctions) (index : DerivedIndex) (scrub : String → String)
    (kind : LongTermKind) (row later : LongTermRow) : Prop where
  carries : Carries scrub row later
  lives : ∃ merged, Lives text index scrub kind row merged later ∧ (merged = false →
    later.trustLevel = row.trustLevel ∧ ∃ times,
      later.subject = row.subject.map scrub^[times] ∧
      later.statement = row.statement.map scrub^[times] ∧
      later.status = row.status.map scrub^[times])

theorem Lives.represents {merged : Bool} {later : LongTermRow}
    (lives : Lives text index scrub kind row merged later) :
    Represents text index scrub kind row later :=
  ⟨lives.carries, merged, lives, lives.wording⟩

/-! ## Collapses -/

/-- What lives on in a lesson lives on where that lesson does. -/
theorem Lives.trans {first second : Bool} {middle later : LongTermRow}
    (lives : Lives text index scrub kind row first middle)
    (on : Lives text index scrub kind middle second later) :
    Lives text index scrub kind row (first || second) later := by
  induction on with
  | kept => exact (Bool.or_false first).symm ▸ lives
  | redacted on ih => exact .redacted ih
  | remapped on verdict ih => exact .remapped ih verdict
  | absorbs other on ih => exact .absorbs other ih
  | absorbed keeper on same ih => exact (Bool.or_true first).symm ▸ .absorbed keeper ih same

/-- A row lives on when rows that agree in id or subject are merged. -/
theorem survival_absorb {alike : LongTermRow → LongTermRow → Prop}
    (justified : ∀ keeper other, alike keeper other →
      SameId keeper other ∨ SameSubject text keeper other)
    (kept : ∀ keeper row other, alike keeper other → alike (keeper.absorb row) other) :
    Survival LongTermRow.absorb alike fun row later =>
      ∃ merged, Lives text index scrub kind row merged later where
  refl row := ⟨false, .kept⟩
  absorbs row keeper other lives := lives.imp fun _ on => .absorbs other on
  absorbed row keeper other same lives := by
    obtain ⟨merged, on⟩ := lives
    exact ⟨true, .absorbed keeper on (justified keeper other same)⟩
  alike := kept

theorem zipIdx_pairwise {α : Type} (rows : List α) (start : Nat) :
    (rows.zipIdx start).Pairwise fun first second => first.2 < second.2 := by
  induction rows generalizing start with
  | nil => exact List.Pairwise.nil
  | cons row rest ih =>
      rw [List.zipIdx_cons]
      refine List.pairwise_cons.mpr ⟨fun other among => ?_, ih (start + 1)⟩
      exact Nat.lt_of_succ_le (List.le_snd_of_mem_zipIdx among)

/-- Every lesson lives on in the lesson left of its id. -/
theorem lives_collapseByMemoryId {rows : List LongTermRow} {old : LongTermRow}
    (among : old ∈ rows) : ∃ later ∈ collapseByMemoryId rows,
      ∃ merged, Lives text index scrub kind old merged later := by
  have survival : Survival LongTermRow.absorb SameId fun row later =>
      ∃ merged, Lives text index scrub kind row merged later :=
    survival_absorb (fun _ _ => .inl) fun keeper row other same => same
  have pairs : (positionKeys LongTermRow.memoryId rows).Pairwise fun first second =>
      first.1 = second.1 → SameId first.2 second.2 := by
    refine List.pairwise_map.mpr ((zipIdx_pairwise rows 0).imp fun apart same => ?_)
    exact ⟨_, _, Nat.ne_of_lt apart, same⟩
  rw [← positionKeys_map_snd LongTermRow.memoryId rows] at among
  obtain ⟨entry, keyed, rfl⟩ := List.mem_map.mp among
  obtain ⟨keeper, left, lives⟩ := survival.collapse pairs entry keyed
  exact ⟨keeper, List.mem_map.mpr ⟨_, left, rfl⟩, lives⟩

/-- Every lesson lives on in the lesson left of its subject. -/
theorem lives_collapseDuplicates {rows : List LongTermRow} {old : LongTermRow}
    (among : old ∈ rows) : ∃ later ∈ collapseDuplicates text rows,
      ∃ merged, Lives text index scrub kind old merged later := by
  have survival : Survival LongTermRow.absorb (SameSubject text) fun row later =>
      ∃ merged, Lives text index scrub kind row merged later :=
    survival_absorb (fun _ _ => .inr) fun keeper row other same => same
  have pairs : (subjectKeys text rows).Pairwise fun first second =>
      first.1 = second.1 → SameSubject text first.2 second.2 := by
    refine List.pairwise_map.mpr ((zipIdx_pairwise rows 0).imp fun {first second} apart same => ?_)
    dsimp only at same ⊢
    cases subject : first.1.subject with
    | none =>
        cases other : second.1.subject with
        | none =>
            rw [subject, other] at same
            exact absurd (congrArg Prod.snd same) (Nat.ne_of_lt apart)
        | some name =>
            rw [subject, other] at same
            cases congrArg Prod.fst same
    | some name =>
        cases other : second.1.subject with
        | none =>
            rw [subject, other] at same
            cases congrArg Prod.fst same
        | some otherName =>
            rw [subject, other] at same
            exact ⟨name, otherName, subject, other, Option.some.inj (congrArg Prod.fst same)⟩
  rw [← subjectKeys_map_snd text rows] at among
  obtain ⟨entry, keyed, rfl⟩ := List.mem_map.mp among
  obtain ⟨keeper, left, lives⟩ := survival.collapse pairs entry keyed
  exact ⟨keeper, List.mem_map.mpr ⟨_, left, rfl⟩, lives⟩

/-! ## Passes -/

variable {store : MemoryStore}

/-- A walk keeps every row, as it is or remapped, or holds its copy back. -/
theorem mem_reconcileRows {α : Type} {active : α → Bool} {classify : α → Verdict α}
    {rows : List α} {budget : Budget} {row : α} (among : row ∈ rows) :
    row ∈ (reconcileRows active classify rows budget).kept ∨
    (∃ moved ∈ (reconcileRows active classify rows budget).kept, classify row = .remap moved) ∨
    ∃ copy ∈ (reconcileRows active classify rows budget).held,
      classify row = .quarantine copy := by
  induction rows generalizing budget with
  | nil => cases among
  | cons first rest ih =>
      rw [reconcileRows]
      dsimp only
      split
      · split
        · rcases List.mem_cons.mp among with rfl | later
          · exact .inl List.mem_cons_self
          · rcases ih later with kept | ⟨moved, kept, verdict⟩ | held
            · exact .inl (List.mem_cons_of_mem _ kept)
            · exact .inr (.inl ⟨moved, List.mem_cons_of_mem _ kept, verdict⟩)
            · exact .inr (.inr held)
        · rename_i moved verdict
          rcases List.mem_cons.mp among with rfl | later
          · exact .inr (.inl ⟨moved, List.mem_cons_self, verdict⟩)
          · rcases ih later with kept | ⟨moved, kept, verdict⟩ | held
            · exact .inl (List.mem_cons_of_mem _ kept)
            · exact .inr (.inl ⟨moved, List.mem_cons_of_mem _ kept, verdict⟩)
            · exact .inr (.inr held)
        · rename_i copy verdict
          rcases List.mem_cons.mp among with rfl | later
          · exact .inr (.inr ⟨copy, List.mem_cons_self, verdict⟩)
          · rcases ih later with kept | remapped | ⟨copy, held, verdict⟩
            · exact .inl kept
            · exact .inr (.inl remapped)
            · exact .inr (.inr ⟨copy, List.mem_cons_of_mem _ held, verdict⟩)
      · rcases List.mem_cons.mp among with rfl | later
        · exact .inl List.mem_cons_self
        · rcases ih later with kept | ⟨moved, kept, verdict⟩ | held
          · exact .inl (List.mem_cons_of_mem _ kept)
          · exact .inr (.inl ⟨moved, List.mem_cons_of_mem _ kept, verdict⟩)
          · exact .inr (.inr held)

/-- What quarantine holds of a lesson is still there when rows are appended to it. -/
theorem held_of_append {held : PendingRow} (copy : Held text index scrub kind row held)
    (among : held ∈ store.tiers.readPending) (rows : List PendingRow) {condition : Prop}
    [Decidable condition] {pending : Option (List PendingRow)}
    (written : pending = if condition then store.tiers.pending
      else some ((store.tiers.readPending ++ rows).map (PendingRow.redact scrub))) :
    ∃ held ∈ pending.getD [], Held text index scrub kind row held := by
  rw [written]
  split
  · exact ⟨held, among, copy⟩
  · exact ⟨_, List.mem_map_of_mem (List.mem_append_left _ among), .redacted copy⟩

/-- A lesson lives on when its file is replaced by one in which every lesson does. -/
theorem Persists.update {later : LongTermRow} {merged : Bool} {rows : List LongTermRow}
    (lives : Lives text index scrub kind row merged later)
    (left : ∃ next ∈ rows, ∃ again, Lives text index scrub kind later again next)
    {after : MemoryStore} (written : after.tiers.longTerm kind =
      some (rows.map (LongTermRow.redact scrub))) :
    Persists text index scrub kind row after := by
  obtain ⟨next, among, again, on⟩ := left
  refine .inl ⟨_, next.redact scrub, ?_, .redacted (lives.trans on)⟩
  rw [Tiers.readLongTerm, written]
  exact List.mem_map_of_mem among

theorem Persists.of_eq (persists : Persists text index scrub kind row store)
    {after : MemoryStore} (lessons : after.tiers.longTerm = store.tiers.longTerm)
    (pending : after.tiers.pending = store.tiers.pending) :
    Persists text index scrub kind row after := by
  rw [Persists, Tiers.readLongTerm, Tiers.readPending, lessons, pending]
  exact persists

theorem Persists.reconcileCards {service : MemoryService}
    (persists : Persists text index service.redactText kind row store) (dryRun : Bool)
    (budget : Budget) : Persists text index service.redactText kind row
      (reconcileEntities service index dryRun store budget).1 := by
  rcases reconcileEntities_writes service index dryRun store budget with same | ⟨-, written⟩
  · rw [same]
    exact persists
  · rcases persists with alive | ⟨held, among, copy⟩
    · refine .inl ?_
      rw [written]
      exact alive
    · exact .inr (held_of_append copy among _ (congrArg Tiers.pending written))

theorem Persists.reconcileKind {service : MemoryService}
    (persists : Persists text index service.redactText kind row store) (dryRun : Bool)
    (other : LongTermKind) (budget : Budget) : Persists text index service.redactText kind row
      (Memory.reconcileKind text service index dryRun other store budget).1 := by
  rcases reconcileKind_writes text service index dryRun store budget other with
    same | ⟨-, written⟩
  · rw [same]
    exact persists
  · rcases persists with ⟨merged, later, among, lives⟩ | ⟨held, among, copy⟩
    · by_cases same : other = kind
      · subst same
        let walk := reconcileRows (fun row : LongTermRow => isActive row.status)
          (classifyLesson text index other) (store.tiers.readLongTerm other) budget
        have file : (Memory.reconcileKind text service index dryRun other store
            budget).1.tiers.longTerm other =
              some ((collapseByMemoryId walk.kept).map
                (LongTermRow.redact service.redactText)) := by
          rw [written]
          exact Function.update_self _ _ _
        rcases mem_reconcileRows among with kept | ⟨moved, kept, verdict⟩ | ⟨copy, kept, verdict⟩
        · exact Persists.update lives (lives_collapseByMemoryId kept) file
        · exact Persists.update (.remapped lives verdict) (lives_collapseByMemoryId kept) file
        · refine .inr ?_
          rw [written]
          dsimp only [Tiers.readPending]
          rw [if_neg (List.ne_nil_of_mem kept), Option.getD_some]
          refine ⟨_, List.mem_map_of_mem (List.mem_append_right _ (List.mem_map_of_mem kept)), ?_⟩
          rw [classifyLesson_eq_quarantine verdict]
          exact .redacted (.copy lives)
      · refine .inl ⟨merged, later, ?_, lives⟩
        rw [written]
        dsimp only [Tiers.readLongTerm]
        rw [Function.update_of_ne (Ne.symm same)]
        exact among
    · exact .inr (held_of_append copy among _ (congrArg Tiers.pending written))

theorem Persists.merge {service : MemoryService}
    (persists : Persists text index service.redactText kind row store) (other : LongTermKind) :
    let collapsed := collapseDuplicates text (store.tiers.readLongTerm other)
    Persists text index service.redactText kind row (store.replaceLongTerm service other collapsed
      (collapsed.filterMap LongTermRow.idOf) .merge) := by
  intro collapsed
  rcases persists with ⟨merged, later, among, lives⟩ | held
  · by_cases same : other = kind
    · subst same
      exact Persists.update lives (lives_collapseDuplicates among) (Function.update_self _ _ _)
    · refine .inl ⟨merged, later, ?_, lives⟩
      rw [MemoryStore.readLongTerm_replaceLongTerm, if_neg (Ne.symm same)]
      exact among
  · exact .inr held

/-- A deed of a cleanup by a service over an index. -/
def Deed.Cleans (service : MemoryService) (index : DerivedIndex) : Deed → Prop
  | .snapshot _ => True
  | .expire own _ _ _ _ => own = service
  | .reconcileCards own given _ _ => own = service ∧ given = index
  | .reconcile own given _ _ => own = service ∧ given = index
  | .merge own _ _ => own = service
  | _ => False

theorem Persists.perform {service : MemoryService}
    (persists : Persists text index service.redactText kind row store) {deed : Deed}
    (cleans : deed.Cleans service index) :
    Persists text index service.redactText kind row (deed.perform text store) := by
  cases deed with
  | snapshot label => exact persists
  | episode own record => cases cleans
  | propose own context proposal => cases cleans
  | card own context candidate => cases cleans
  | expire own config now dryRun budget =>
      obtain ⟨lessons, -, pending⟩ := expireEpisodes_others own config now dryRun store budget
      exact persists.of_eq lessons pending
  | reconcileCards own given dryRun budget =>
      obtain ⟨rfl, rfl⟩ := cleans
      exact persists.reconcileCards dryRun budget
  | reconcile own given dryRun budget =>
      obtain ⟨rfl, rfl⟩ := cleans
      have kept (other : LongTermKind) (store : MemoryStore) (budget : Budget)
          (persists : Persists text given own.redactText kind row store) :
          Persists text given own.redactText kind row
            (Memory.reconcileKind text own given dryRun other store budget).1 :=
        persists.reconcileKind dryRun other budget
      exact reconcileLessons_keeps kept _ budget persists
  | merge own dryRun budget =>
      cases cleans
      have kept (other : LongTermKind) (store : MemoryStore)
          (persists : Persists text index service.redactText kind row store) :
          let collapsed := collapseDuplicates text (store.tiers.readLongTerm other)
          Persists text index service.redactText kind row (store.replaceLongTerm service other
            collapsed (collapsed.filterMap LongTermRow.idOf) .merge) :=
        persists.merge other
      exact mergeLongTermDuplicates_keeps kept _ budget persists

/-- The deeds of a cleanup are its own. -/
theorem cleans_of_mem_deeds {service : MemoryService} {config : MemoryConfig} {now : Stamp}
    {dryRun full : Bool} {clock : Nat → Bool} {deed : Deed}
    (among : deed ∈ (Operation.cleanup service config index now dryRun full clock).deeds text
      store) : deed.Cleans service index := by
  rw [Operation.deeds] at among
  split at among
  · cases among
  · rcases List.mem_append.mp among with first | pass
    · cases dryRun with
      | true => cases first
      | false => exact List.mem_singleton.mp first ▸ trivial
    · simp only [cleanupDeeds, List.mem_cons, List.not_mem_nil, or_false] at pass
      rcases pass with rfl | rfl | rfl | rfl
      · exact rfl
      · exact ⟨rfl, rfl⟩
      · exact ⟨rfl, rfl⟩
      · exact rfl

/-- A lesson lives on through a cleanup. -/
theorem persists_runOnce (service : MemoryService) (config : MemoryConfig) (now : Stamp)
    (dryRun full : Bool) (clock : Nat → Bool)
    (among : row ∈ store.tiers.readLongTerm kind) :
    Persists text index service.redactText kind row
      (runOnce text service config index now dryRun clock full store).1 := by
  have start : Persists text index service.redactText kind row store :=
    .inl ⟨false, row, among, .kept⟩
  have kept (deed : Deed) (store : MemoryStore) (cleans : deed.Cleans service index)
      (persists : Persists text index service.redactText kind row store) :
      Persists text index service.redactText kind row (deed.perform text store) :=
    persists.perform cleans
  let cleanup := Operation.cleanup service config index now dryRun full clock
  have run : (runOnce text service config index now dryRun clock full store).1 =
      store.after text (cleanup.deeds text store) := perform_eq_after store cleanup
  rw [run]
  exact after_invariant kept start fun deed among => cleans_of_mem_deeds among

/-! ## Episodes -/

theorem mem_expiredEpisodes {config : MemoryConfig} {now : Stamp} {rows : List EpisodeRow}
    {row : EpisodeRow} : row ∈ expiredEpisodes config now rows ↔
      row ∈ rows ∧ row.expired now config.shortTermTtlDays = true := by
  rw [expiredEpisodes, (List.mergeSort_perm _ _).mem_iff, List.mem_filter]

/-- An episode stays when no expired one shares its id. -/
theorem episode_expireEpisodes (service : MemoryService) {config : MemoryConfig} {now : Stamp}
    (dryRun : Bool) (budget : Budget) {row : EpisodeRow} (among : row ∈ store.tiers.readEpisodes)
    (apart : ∀ other ∈ store.tiers.readEpisodes,
      other.expired now config.shortTermTtlDays = true → other.idText ≠ row.idText) :
    ∃ later ∈ (expireEpisodes service config now dryRun store budget).1.tiers.readEpisodes,
      later = row ∨ later = row.redact service.redactText := by
  rcases expireEpisodes_writes service config now dryRun store budget with same | ⟨-, written⟩
  · rw [same]
    exact ⟨row, among, .inl rfl⟩
  · refine ⟨row.redact service.redactText, ?_, .inr rfl⟩
    rw [written]
    refine List.mem_map_of_mem (List.mem_filter.mpr ⟨among, decide_eq_true ?_⟩)
    intro dropped
    obtain ⟨other, taken, same⟩ := List.mem_map.mp dropped
    obtain ⟨member, expired⟩ := mem_expiredEpisodes.mp (List.mem_of_mem_take taken)
    exact apart other member expired same

/-- The other passes leave the episodes alone. -/
theorem cleanupPasses_recent (service : MemoryService) (config : MemoryConfig) (now : Stamp)
    (dryRun : Bool) (budget : Budget) :
    (cleanupPasses text service config index now dryRun store budget).1.tiers.recent =
      (expireEpisodes service config now dryRun store budget).1.tiers.recent := by
  unfold cleanupPasses
  dsimp only
  rw [(mergeLongTermDuplicates_others text service _ _ _ _).1,
    (reconcileLessons_others text service _ _ _ _ _).1,
    (reconcileEntities_others service _ _ _ _).1]

/-- An episode stays through a cleanup when no expired one shares its id. -/
theorem episode_runOnce (service : MemoryService) {config : MemoryConfig} {now : Stamp}
    (dryRun full : Bool) (clock : Nat → Bool) {row : EpisodeRow}
    (among : row ∈ store.tiers.readEpisodes)
    (apart : ∀ other ∈ store.tiers.readEpisodes,
      other.expired now config.shortTermTtlDays = true → other.idText ≠ row.idText) :
    ∃ later ∈ (runOnce text service config index now dryRun clock full store).1.tiers.readEpisodes,
      later = row ∨ later = row.redact service.redactText := by
  rw [runOnce_store]
  split
  · have same : (store.started text now dryRun).tiers = store.tiers :=
      store.started_tiers now dryRun
    rw [← same] at among apart
    obtain ⟨later, member, kept⟩ := episode_expireEpisodes service dryRun
      (config.budget clock full) among apart
    refine ⟨later, ?_, kept⟩
    rw [Tiers.readEpisodes, cleanupPasses_recent]
    exact member
  · exact ⟨row, among, .inl rfl⟩

end Orchestrator.Memory
