import Orchestrator.Memory.Budgets

/-! # Cleaning up twice

What a full pass leaves is settled, and over a settled store every pass changes nothing.
-/

namespace Orchestrator.Memory

variable (text : TextFunctions) (index : DerivedIndex) (config : MemoryConfig) (now : Stamp)

/-- A store without expired episodes, without active rows whose paths are missing and without
lessons of one subject. -/
structure MemoryStore.Settled (store : MemoryStore) : Prop where
  episodes : ∀ row ∈ store.tiers.readEpisodes, row.expired now config.shortTermTtlDays = false
  cards : ∀ row ∈ store.tiers.readEntities, isActive row.status = true →
    classifyEntity index row = .fresh
  lessons : ∀ kind, ∀ row ∈ store.tiers.readLongTerm kind, isActive row.status = true →
    classifyLesson text index kind row = .fresh
  subjects : ∀ kind, mergeCount text (store.tiers.readLongTerm kind) = 0

variable {text index config now} {service : MemoryService} {store : MemoryStore}
  {budget : Budget} {dryRun : Bool}

/-! ## Over a settled store -/

theorem expireEpisodes_of_fresh
    (fresh : ∀ row ∈ store.tiers.readEpisodes, row.expired now config.shortTermTtlDays = false) :
    (expireEpisodes service config now dryRun store budget).1 = store := by
  have none : expiredEpisodes config now store.tiers.readEpisodes = [] := by
    refine List.eq_nil_iff_forall_not_mem.mpr fun row among => ?_
    obtain ⟨member, expired⟩ := mem_expiredEpisodes.mp among
    exact Bool.false_ne_true ((fresh row member).symm.trans expired)
  rcases expireEpisodes_writes service config now dryRun store budget with same | ⟨-, -⟩
  · exact same
  · unfold expireEpisodes
    dsimp only
    split
    · rfl
    · rw [none, if_pos]
      rw [Budget.allowEdits]
      split
      · rfl
      · simp

theorem reconcileEntities_of_fresh (fresh : ∀ row ∈ store.tiers.readEntities,
      isActive row.status = true → classifyEntity index row = .fresh) :
    (reconcileEntities service index dryRun store budget).1 = store := by
  unfold reconcileEntities
  dsimp only
  split
  · rfl
  · rw [if_pos (reconcileRows_of_fresh fresh budget)]

theorem reconcileLessons_of_fresh (fresh : ∀ kind, ∀ row ∈ store.tiers.readLongTerm kind,
      isActive row.status = true → classifyLesson text index kind row = .fresh)
    (kinds : List LongTermKind) :
    (reconcileLessons text service index dryRun kinds store budget).1 = store := by
  have kept (kind : LongTermKind) (before : MemoryStore) (budget : Budget)
      (same : before = store) :
      (reconcileKind text service index dryRun kind before budget).1 = store := by
    subst same
    unfold reconcileKind
    dsimp only
    rw [if_pos (reconcileRows_of_fresh (fresh kind) budget)]
  exact reconcileLessons_keeps kept kinds budget rfl

theorem mergeLongTermDuplicates_of_distinct
    (distinct : ∀ kind, mergeCount text (store.tiers.readLongTerm kind) = 0)
    (kinds : List LongTermKind) :
    (mergeLongTermDuplicates text service dryRun kinds store budget).1 = store := by
  induction kinds generalizing budget with
  | nil => rfl
  | cons kind kinds ih =>
      unfold mergeLongTermDuplicates
      dsimp only
      split
      · rfl
      · rw [if_pos (.inl (distinct kind))]
        exact ih

/-- A pass over a settled store changes nothing. -/
theorem cleanupPasses_of_settled (settled : store.Settled text index config now) :
    (cleanupPasses text service config index now dryRun store budget).1 = store := by
  unfold cleanupPasses
  dsimp only
  rw [expireEpisodes_of_fresh settled.episodes, reconcileEntities_of_fresh settled.cards,
    reconcileLessons_of_fresh settled.lessons,
    mergeLongTermDuplicates_of_distinct settled.subjects]

/-- A cleanup of a settled store writes no tier and nothing to the audit log. -/
theorem runOnce_of_settled (settled : store.Settled text index config now) (full : Bool)
    (clock : Nat → Bool) :
    let after := (runOnce text service config index now dryRun clock full store).1
    after.tiers = store.tiers ∧ after.audit = store.audit := by
  dsimp only
  rw [runOnce_store]
  split
  · have still : (store.started text now dryRun).Settled text index config now := by
      constructor
      · rw [MemoryStore.started_tiers]
        exact settled.episodes
      · rw [MemoryStore.started_tiers]
        exact settled.cards
      · rw [MemoryStore.started_tiers]
        exact settled.lessons
      · rw [MemoryStore.started_tiers]
        exact settled.subjects
    rw [cleanupPasses_of_settled still, MemoryStore.started_tiers, MemoryStore.started_audit]
    exact ⟨rfl, rfl⟩
  · exact ⟨rfl, rfl⟩

/-! ## Full passes -/

/-- A full expiry leaves no expired episode. -/
theorem episodes_of_full (full : budget.full = true) :
    ∀ row ∈ (expireEpisodes service config now false store budget).1.tiers.readEpisodes,
      row.expired now config.shortTermTtlDays = false := by
  have none (row : EpisodeRow) (among : row ∈ store.tiers.readEpisodes)
      (empty : expiredEpisodes config now store.tiers.readEpisodes = []) :
      row.expired now config.shortTermTtlDays = false := by
    refine Bool.eq_false_iff.mpr fun expired => ?_
    exact absurd (empty ▸ mem_expiredEpisodes.mpr ⟨among, expired⟩) List.not_mem_nil
  have scanned : (budget.scan store.tiers.readEpisodes.length).full = true := full
  unfold expireEpisodes
  dsimp only
  rw [Budget.allowEdits_of_full scanned]
  split
  · rename_i empty
    rw [empty]
    exact fun row none => absurd none List.not_mem_nil
  · split
    · rename_i empty
      exact fun row among => none row among (List.length_eq_zero_iff.mp empty)
    · intro row among
      obtain ⟨old, member, rfl⟩ := List.mem_map.mp among
      obtain ⟨kept, apart⟩ := List.mem_filter.mp member
      refine Bool.eq_false_iff.mpr fun expired => of_decide_eq_true apart ?_
      rw [List.take_length]
      exact List.mem_map_of_mem (mem_expiredEpisodes.mpr ⟨kept, expired⟩)

/-- A full walk over cards leaves them settled. -/
theorem cards_of_full (full : budget.full = true)
    (tracked : ∀ path ∈ index.tracked, service.redactText path = path)
    (stable : ∀ row ∈ store.tiers.readEntities, row.Stable service.redactText) :
    ∀ row ∈ (reconcileEntities service index false store budget).1.tiers.readEntities,
      row.Settled index service.redactText := by
  unfold reconcileEntities
  dsimp only
  split
  · rename_i empty
    rw [empty]
    exact fun row none => absurd none List.not_mem_nil
  · split
    · rename_i unmoved
      exact fun row among =>
        ⟨stable row among, fresh_of_reconcileRows full unmoved.1 unmoved.2 row among⟩
    · intro row among
      rw [if_neg Bool.false_ne_true, ite_replacePending_tiers] at among
      obtain ⟨old, member, rfl⟩ := List.mem_map.mp among
      refine EntityRow.Settled.redact (forall_mem_collapseEntities ?_ ?_ old member)
      · intro row tasks settled
        refine ⟨⟨settled.paths, settled.status⟩, fun active => ?_⟩
        have present := classifyEntity_eq_fresh.mp (settled.fresh active)
        exact classifyEntity_eq_fresh.mpr present
      · intro kept found
        rcases mem_reconcileRows_full full found with ⟨same, fresh⟩ | ⟨before, origin, moved⟩
        · exact ⟨stable kept same, fresh⟩
        · exact (stable before origin).remapped tracked moved

theorem reconcileKind_other {kind other : LongTermKind} (apart : other ≠ kind) :
    (reconcileKind text service index dryRun kind store budget).1.tiers.readLongTerm other =
      store.tiers.readLongTerm other := by
  rcases reconcileKind_writes text service index dryRun store budget kind with
    same | ⟨-, written⟩
  · rw [same]
  · have lessons := congrArg (fun tiers : Tiers => tiers.longTerm other) written
    dsimp only at lessons
    rw [Function.update_of_ne apart] at lessons
    exact congrArg (Option.getD · []) lessons

theorem LongTermRow.Settled.absorb {scrub : String → String} {kind : LongTermKind}
    {keeper : LongTermRow} (settled : keeper.Settled text index scrub kind) (row : LongTermRow) :
    (keeper.absorb row).Settled text index scrub kind := by
  refine ⟨⟨settled.subject, settled.paths, settled.status⟩, fun active => ?_⟩
  have present := classifyLesson_eq_fresh.mp (settled.fresh active)
  exact classifyLesson_eq_fresh.mpr present

/-- The lessons of a kind are settled. -/
def SettledFile (text : TextFunctions) (index : DerivedIndex) (scrub : String → String)
    (store : MemoryStore) (kind : LongTermKind) : Prop :=
  ∀ row ∈ store.tiers.readLongTerm kind, row.Settled text index scrub kind

/-- A full walk over the lessons of a kind leaves them settled. -/
theorem reconcileKind_settled (full : budget.full = true)
    (tracked : ∀ path ∈ index.tracked, service.redactText path = path) {kind : LongTermKind}
    (stable : ∀ row ∈ store.tiers.readLongTerm kind, row.Stable service.redactText) :
    SettledFile text index service.redactText
      (reconcileKind text service index false kind store budget).1 kind := by
  unfold SettledFile reconcileKind
  dsimp only
  split
  · rename_i unmoved
    exact fun row among =>
      ⟨stable row among, fresh_of_reconcileRows full unmoved.1 unmoved.2 row among⟩
  · intro row among
    rw [if_neg Bool.false_ne_true, ite_replacePending_tiers] at among
    change row ∈ (Function.update store.tiers.longTerm kind (some _) kind).getD [] at among
    rw [Function.update_self, Option.getD_some] at among
    obtain ⟨old, member, rfl⟩ := List.mem_map.mp among
    refine LongTermRow.Settled.redact (forall_mem_collapseByMemoryId ?_ ?_ old member)
    · exact fun keeper row settled _ => settled.absorb row
    · intro kept found
      rcases mem_reconcileRows_full full found with ⟨same, fresh⟩ | ⟨before, origin, moved⟩
      · exact ⟨stable kept same, fresh⟩
      · exact (stable before origin).remapped tracked moved

/-- A full walk over kinds leaves their lessons settled, and those that were. -/
theorem lessons_of_full (full : budget.full = true)
    (tracked : ∀ path ∈ index.tracked, service.redactText path = path)
    (stable : ∀ kind, ∀ row ∈ store.tiers.readLongTerm kind, row.Stable service.redactText)
    (kinds : List LongTermKind) (kind : LongTermKind)
    (covered : kind ∈ kinds ∨ SettledFile text index service.redactText store kind) :
    SettledFile text index service.redactText
      (reconcileLessons text service index false kinds store budget).1 kind := by
  induction kinds generalizing store budget with
  | nil => exact covered.resolve_left List.not_mem_nil
  | cons first kinds ih =>
      unfold reconcileLessons
      rw [Budget.canAct_of_full full]
      dsimp only
      rw [if_neg (by decide)]
      split
      · rename_i empty
        refine ih full stable ?_
        rcases covered with among | settled
        · rcases List.mem_cons.mp among with rfl | later
          · exact .inr fun row among => absurd (empty ▸ among) List.not_mem_nil
          · exact .inl later
        · exact .inr settled
      · have here : SettledFile text index service.redactText
            (reconcileKind text service index false first store budget).1 first :=
          reconcileKind_settled full tracked (stable first)
        refine ih ((later_reconcileKind _ _ _).full.trans full) (fun other row among => ?_) ?_
        · by_cases same : other = first
          · subst same
            exact (here row among).toStable
          · rw [reconcileKind_other same] at among
            exact stable other row among
        · by_cases same : kind = first
          · subst same
            exact .inr here
          · refine covered.imp (fun among => (List.mem_cons.mp among).resolve_left same) ?_
            intro settled row among
            rw [reconcileKind_other same] at among
            exact settled row among

theorem subjectsOf_redact {scrub : String → String} {rows : List LongTermRow}
    (stable : ∀ row ∈ rows, row.Stable scrub) :
    subjectsOf text (rows.map (LongTermRow.redact scrub)) = subjectsOf text rows := by
  rw [subjectsOf, List.filterMap_map, subjectsOf]
  refine List.filterMap_congr fun row among => ?_
  exact congrArg (Option.map (normalizeSubject text)) (stable row among).subject

variable (text) in
/-- A full merge of the files of some kinds leaves no two lessons of one subject there, nor in files
that had none. -/
theorem subjects_of_full (full : budget.full = true)
    (settled : ∀ kind, SettledFile text index service.redactText store kind)
    (kinds : List LongTermKind) (kind : LongTermKind)
    (covered : kind ∈ kinds ∨ mergeCount text (store.tiers.readLongTerm kind) = 0) :
    let after := (mergeLongTermDuplicates text service false kinds store budget).1
    SettledFile text index service.redactText after kind ∧
      mergeCount text (after.tiers.readLongTerm kind) = 0 := by
  induction kinds generalizing store budget with
  | nil => exact ⟨settled kind, covered.resolve_left List.not_mem_nil⟩
  | cons first kinds ih =>
      unfold mergeLongTermDuplicates
      rw [Budget.canAct_of_full full]
      dsimp only
      rw [if_neg (by decide)]
      have scanned : (budget.scan (store.tiers.readLongTerm first).length).full = true := full
      rw [Budget.allowEdits_of_full scanned]
      split
      · rename_i none
        refine ih scanned settled ?_
        rcases covered with among | distinct
        · rcases List.mem_cons.mp among with rfl | later
          · exact .inr (none.resolve_right (lt_irrefl _))
          · exact .inl later
        · exact .inr distinct
      · rw [if_neg Bool.false_ne_true]
        have collapsed : ∀ row ∈ collapseDuplicates text (store.tiers.readLongTerm first),
            row.Settled text index service.redactText first :=
          forall_mem_collapseDuplicates (fun keeper row settled _ => settled.absorb row)
            (settled first)
        refine ih full (fun other row among => ?_) ?_
        · rw [MemoryStore.readLongTerm_replaceLongTerm] at among
          split at among
          · rename_i same
            subst same
            obtain ⟨old, member, rfl⟩ := List.mem_map.mp among
            exact (collapsed old member).redact
          · exact settled other row among
        · rw [MemoryStore.readLongTerm_replaceLongTerm]
          by_cases same : kind = first
          · rw [if_pos same, mergeCount_eq_zero,
              subjectsOf_redact fun row among => (collapsed row among).toStable]
            exact .inr (subjectsOf_collapseDuplicates_nodup _)
          · rw [if_neg same]
            exact covered.imp_left fun among => (List.mem_cons.mp among).resolve_left same

/-! ## A full cleanup -/

/-- Redaction leaves the tracked paths, the paths and states of the rows and the subjects of the
lessons as they are. -/
structure Unredacted (index : DerivedIndex) (scrub : String → String)
    (store : MemoryStore) : Prop where
  tracked : ∀ path ∈ index.tracked, scrub path = path
  cards : ∀ row ∈ store.tiers.readEntities, row.Stable scrub
  lessons : ∀ kind, ∀ row ∈ store.tiers.readLongTerm kind, row.Stable scrub

theorem LongTermKind.mem_all (kind : LongTermKind) : kind ∈ LongTermKind.all := by
  cases kind <;> decide

theorem settled_cleanupPasses (full : budget.full = true)
    (unredacted : Unredacted index service.redactText store) :
    (cleanupPasses text service config index now false store budget).1.Settled text index config
      now := by
  let expired := expireEpisodes service config now false store budget
  let cards := reconcileEntities service index false expired.1 expired.2.1
  let lessons := reconcileLessons text service index false LongTermKind.all cards.1 cards.2.1
  have passes : (cleanupPasses text service config index now false store budget).1 =
      (mergeLongTermDuplicates text service false LongTermKind.all lessons.1 lessons.2.1).1 := by
    unfold cleanupPasses
    dsimp only [expired, cards, lessons]
  have fullCards : expired.2.1.full = true := (later_expireEpisodes _ _).full.trans full
  have fullLessons : cards.2.1.full = true :=
    (later_reconcileEntities _ _).full.trans fullCards
  have fullMerge : lessons.2.1.full = true :=
    (later_reconcileLessons _ _ _).full.trans fullLessons
  have sameCards : expired.1.tiers.entities = store.tiers.entities :=
    (expireEpisodes_others service config now false store budget).2.1
  have sameLessons : cards.1.tiers.longTerm = store.tiers.longTerm :=
    (reconcileEntities_others service index false expired.1 expired.2.1).2.trans
      (expireEpisodes_others service config now false store budget).1
  have settledCards : ∀ row ∈ cards.1.tiers.readEntities, row.Settled index service.redactText :=
    cards_of_full fullCards unredacted.tracked (by
      rw [Tiers.readEntities, sameCards]
      exact unredacted.cards)
  have settledLessons (kind : LongTermKind) :
      SettledFile text index service.redactText lessons.1 kind := by
    refine lessons_of_full fullLessons unredacted.tracked ?_ LongTermKind.all kind
      (.inl kind.mem_all)
    intro other row among
    rw [Tiers.readLongTerm, sameLessons] at among
    exact unredacted.lessons other row among
  have merged (kind : LongTermKind) :=
    subjects_of_full text fullMerge settledLessons LongTermKind.all kind
      (.inl kind.mem_all)
  constructor
  · rw [Tiers.readEpisodes, cleanupPasses_recent]
    exact episodes_of_full full
  · rw [passes, Tiers.readEntities, (mergeLongTermDuplicates_others text service _ _ _ _).2.1,
      (reconcileLessons_others text service index _ _ _ _).2]
    exact fun row among => (settledCards row among).fresh
  · rw [passes]
    exact fun kind row among => ((merged kind).1 row among).fresh
  · rw [passes]
    exact fun kind => (merged kind).2

/-- Where there is no file there is no row. -/
theorem MemoryStore.rows_of_no_file (none : ¬ store.tiers.anyFile = true) :
    store.tiers.readEpisodes = [] ∧ store.tiers.readEntities = [] ∧
      ∀ kind, store.tiers.readLongTerm kind = [] := by
  simp only [Tiers.anyFile, Bool.or_eq_true, List.any_eq_true, not_or, not_exists,
    Option.not_isSome_iff_eq_none, not_and] at none
  obtain ⟨⟨⟨recent, entities⟩, -⟩, longTerm⟩ := none
  rw [Tiers.readEpisodes, recent, Tiers.readEntities, entities]
  refine ⟨rfl, rfl, fun kind => ?_⟩
  rw [Tiers.readLongTerm, longTerm kind kind.mem_all]
  rfl

/-- A full cleanup settles a store. -/
theorem settled_runOnce (clock : Nat → Bool)
    (unredacted : Unredacted index service.redactText store) :
    (runOnce text service config index now false clock true store).1.Settled text index config
      now := by
  rw [runOnce_store]
  by_cases some : store.tiers.anyFile = true
  · rw [if_pos some]
    refine settled_cleanupPasses rfl ⟨unredacted.tracked, ?_, ?_⟩
    · rw [MemoryStore.started_tiers]
      exact unredacted.cards
    · rw [MemoryStore.started_tiers]
      exact unredacted.lessons
  · rw [if_neg some]
    obtain ⟨episodes, cards, lessons⟩ := MemoryStore.rows_of_no_file some
    constructor
    · rw [episodes]
      exact fun row none => absurd none List.not_mem_nil
    · rw [cards]
      exact fun row none => absurd none List.not_mem_nil
    · intro kind row among
      exact absurd (lessons kind ▸ among) List.not_mem_nil
    · intro kind
      rw [lessons kind]
      rfl

/-- A cleanup loses no lesson: each is represented in its file or has a copy in quarantine. An
episode stays unless an expired one has its id. After a full cleanup that redaction does not
disturb, another one at the same instant writes nothing. -/
theorem cleanup_keeps (text : TextFunctions) (service : MemoryService) (config : MemoryConfig)
    (index : DerivedIndex) (now : Stamp) (full : Bool) (clock : Nat → Bool)
    (store : MemoryStore) :
    let after := (runOnce text service config index now false clock full store).1
    (∀ kind, ∀ row ∈ store.tiers.readLongTerm kind, isActive row.status = true →
      (∃ later ∈ after.tiers.readLongTerm kind,
        Represents text index service.redactText kind row later) ∨
      ∃ held ∈ after.tiers.readPending, Held text index service.redactText kind row held) ∧
    (∀ row ∈ store.tiers.readEpisodes,
      (∀ other ∈ store.tiers.readEpisodes,
        other.expired now config.shortTermTtlDays = true → other.idText ≠ row.idText) →
      ∃ later ∈ after.tiers.readEpisodes, later = row ∨ later = row.redact service.redactText) ∧
    (full = true → Unredacted index service.redactText store → ∀ otherClock,
      let again := (runOnce text service config index now false otherClock true after).1
      again.tiers = after.tiers ∧ again.audit = after.audit) := by
  intro after
  refine ⟨fun kind row among _ => ?_, fun row among apart => ?_, fun every unredacted other => ?_⟩
  · refine (persists_runOnce service config now false full clock among).imp_left ?_
    rintro ⟨merged, later, member, lives⟩
    exact ⟨later, member, lives.represents⟩
  · exact episode_runOnce service false full clock among apart
  · subst every
    exact runOnce_of_settled (settled_runOnce clock unredacted) true other

/-- A lesson about the start of the program. -/
def startLesson (id subject statement : String) : LongTermRow where
  memoryId := some id
  kind := .semantic
  subject := some subject
  statement := some statement
  trustLevel := .repoObserved
  evidence := [⟨"code", "src/app.py"⟩]
  status := some "active"

/-- A store with semantic lessons only. -/
def semanticStore (rows : List LongTermRow) : MemoryStore where
  tiers := { longTerm := fun kind => if kind = .semantic then some rows else none }

def emptyIndex : DerivedIndex := .ofListed [] fun _ => false

/-- A full cleanup on New Year's Day. -/
def newYearCleanup (service : MemoryService) (store : MemoryStore) : MemoryStore :=
  (runOnce sampleText service {} emptyIndex (midnight "2026-01-01" 1) false (fun _ => true) true
    store).1

def tokenService : MemoryService where
  redactText text := if text ∈ ["token=one", "token=two"] then "token=[REDACTED]" else text

/-- Two lessons of one subject that state different things. -/
def startStore : MemoryStore := semanticStore
  [startLesson "ltm_1" "Startup order" "Settings are read first.",
    startLesson "ltm_2" "startup  order" "The database is opened first."]

/-- Two lessons of one subject, and two of subjects that redaction makes one. -/
def tokenStore : MemoryStore := semanticStore
  [startLesson "ltm_1" "Startup order" "", startLesson "ltm_2" "startup order" "",
    startLesson "ltm_3" "token=one" "", startLesson "ltm_4" "token=two" ""]

set_option maxRecDepth 4000 in
/-- Of two lessons of one subject, whatever they state, only the first statement is left. Where a
rewrite redacts two subjects into one, the next cleanup merges them. -/
theorem cleanup_merges_statements :
    ((newYearCleanup plainService startStore).tiers.readLongTerm .semantic).map
      LongTermRow.statement = [some "Settings are read first."] ∧
    (newYearCleanup plainService startStore).tiers.readPending = [] ∧
    ((newYearCleanup tokenService tokenStore).tiers.readLongTerm .semantic).length = 3 ∧
    ((newYearCleanup tokenService
      (newYearCleanup tokenService tokenStore)).tiers.readLongTerm .semantic).length = 2 := by
  refine ⟨?_, ?_, ?_, ?_⟩ <;> decide +kernel

theorem plainService_unredacted (index : DerivedIndex) (store : MemoryStore) :
    Unredacted index plainService.redactText store where
  tracked _ _ := rfl
  cards _ _ := ⟨fun _ _ => rfl, Option.map_id'⟩
  lessons _ _ _ :=
    ⟨Option.map_id', fun _ _ _ _ => rfl, Option.map_id'⟩

/-- The second lesson lives on in the first one, and a second cleanup changes nothing. -/
theorem cleanup_keeps_startStore :
    ((∃ later ∈ (newYearCleanup plainService startStore).tiers.readLongTerm .semantic,
      Represents sampleText emptyIndex plainService.redactText .semantic
        (startLesson "ltm_2" "startup  order" "The database is opened first.") later) ∨
    ∃ held ∈ (newYearCleanup plainService startStore).tiers.readPending,
      Held sampleText emptyIndex plainService.redactText .semantic
        (startLesson "ltm_2" "startup  order" "The database is opened first.") held) ∧
    (newYearCleanup plainService (newYearCleanup plainService startStore)).tiers =
      (newYearCleanup plainService startStore).tiers := by
  unfold newYearCleanup
  have kept := cleanup_keeps sampleText plainService {} emptyIndex (midnight "2026-01-01" 1) true
    (fun _ => true) startStore
  have among : startLesson "ltm_2" "startup  order" "The database is opened first." ∈
      startStore.tiers.readLongTerm .semantic := List.mem_cons_of_mem _ List.mem_cons_self
  exact ⟨kept.1 .semantic _ among rfl,
    (kept.2.2 rfl (plainService_unredacted emptyIndex startStore) fun _ => true).1⟩

end Orchestrator.Memory
