import Orchestrator.Memory.DryRun

/-! # When a dry run counts right

A dry run of a full pass counts what the pass itself would exactly when no lesson is held
back, the moved lessons keep keys of their own, and redaction leaves as many duplicates.
-/

namespace Orchestrator.Memory

open Orchestrator.Foundation

variable {text : TextFunctions} {index : DerivedIndex} {scrub : String → String}
  {kind : LongTermKind} {service : MemoryService} {config : MemoryConfig} {now : Stamp}
  {first store : MemoryStore} {budget : Budget} {dryRun other : Bool}

/-! ## Duplicates -/

/-- How many lessons are merged depends on their subjects alone. -/
theorem mergeCount_congr {rows others : List LongTermRow}
    (same : rows.map LongTermRow.subject = others.map LongTermRow.subject) :
    mergeCount text rows = mergeCount text others := by
  have keys (rows : List LongTermRow) : (subjectKeys text rows).map Prod.fst =
      (rows.zipIdx 0).map (subjectKeyAt text) := by
    rw [subjectKeys, List.map_map]
    rfl
  have bySubject : ∀ (rows others : List LongTermRow) (start : Nat),
      rows.map LongTermRow.subject = others.map LongTermRow.subject →
      (rows.zipIdx start).map (subjectKeyAt text) =
        (others.zipIdx start).map (subjectKeyAt text) := by
    intro rows
    induction rows with
    | nil =>
        intro others start same
        cases List.map_eq_nil_iff.mp same.symm
        rfl
    | cons row rest ih =>
        intro others start same
        cases others with
        | nil => cases same
        | cons other later =>
            rw [List.map_cons, List.map_cons, List.cons.injEq] at same
            rw [List.zipIdx_cons, List.zipIdx_cons, List.map_cons, List.map_cons,
              ih later (start + 1) same.2, subjectKeyAt, subjectKeyAt, same.1]
  have sizes : rows.length = others.length := by
    rw [← List.length_map LongTermRow.subject, same, List.length_map]
  rw [mergeCount, mergeCount, collapseDuplicates, collapseDuplicates, List.length_map,
    List.length_map, collapse_length, collapse_length, keys, keys, bySubject rows others 0 same,
    sizes]

theorem map_redact_subject (rows : List LongTermRow) :
    (rows.map (LongTermRow.redact scrub)).map LongTermRow.subject =
      (rows.map LongTermRow.subject).map (Option.map scrub) := by
  rw [List.map_map, List.map_map]
  rfl

/-- Rows that stay keep their subjects. -/
theorem filterMap_settle_subject {rows : List LongTermRow}
    (stay : rows.any (strandsLesson text index kind) = false) :
    (rows.filterMap (settleLesson text index kind)).map LongTermRow.subject =
      rows.map LongTermRow.subject := by
  induction rows with
  | nil => rfl
  | cons row rest ih =>
      rw [List.any_cons, Bool.or_eq_false_iff] at stay
      rw [List.filterMap_cons]
      cases settled : settleLesson text index kind row with
      | none => exact absurd (settleLesson_eq_none.mp settled) (Bool.eq_false_iff.mp stay.1)
      | some kept =>
          dsimp only
          rw [List.map_cons, List.map_cons, ih stay.2, settleLesson_subject settled]

/-- The file of a kind as the walk over lessons redacts it, if it moves one of them. -/
def rewritten (text : TextFunctions) (index : DerivedIndex) (scrub : String → String)
    (kind : LongTermKind) (rows : List LongTermRow) : List LongTermRow :=
  if rows.any (movesLesson text index kind) then rows.map (LongTermRow.redact scrub) else rows

/-- A walk that loses no row leaves the duplicates of the redacted file. -/
theorem mergeCount_leftBy {rows : List LongTermRow}
    (whole : (leftBy text index scrub kind rows).length = rows.length) :
    mergeCount text (leftBy text index scrub kind rows) =
      mergeCount text (rewritten text index scrub kind rows) := by
  obtain ⟨stay, distinct⟩ := length_leftBy_eq.mp whole
  unfold leftBy rewritten
  rw [stay, Bool.or_false]
  split
  · rename_i moves
    rw [collapseByMemoryId_of_nodup (distinct moves)]
    apply mergeCount_congr
    rw [map_redact_subject, map_redact_subject, filterMap_settle_subject stay]
  · rfl

/-! ## Full passes -/

/-- No active lesson is held back, the lessons of a file in which one moves keep keys of their own,
and rewriting the files leaves as many duplicates. -/
structure Undisturbed (text : TextFunctions) (index : DerivedIndex) (scrub : String → String)
    (store : MemoryStore) : Prop where
  stay : ∀ kind, (store.tiers.readLongTerm kind).any (strandsLesson text index kind) = false
  distinct : ∀ kind, (store.tiers.readLongTerm kind).any (movesLesson text index kind) = true →
    (idKeys ((store.tiers.readLongTerm kind).filterMap (settleLesson text index kind))).Nodup
  duplicates : total (fun kind => mergeCount text (rewritten text index scrub kind
      (store.tiers.readLongTerm kind))) LongTermKind.all =
    total (fun kind => mergeCount text (store.tiers.readLongTerm kind)) LongTermKind.all

theorem LongTermKind.all_nodup : LongTermKind.all.Nodup := by decide

/-- The sizes and the duplicates of the files before and after the walk over lessons. -/
theorem undisturbed_iff : Undisturbed text index scrub store ↔
    total (fun kind => (leftBy text index scrub kind (store.tiers.readLongTerm kind)).length)
        LongTermKind.all =
      total (fun kind => (store.tiers.readLongTerm kind).length) LongTermKind.all ∧
    total (fun kind => mergeCount text (leftBy text index scrub kind
        (store.tiers.readLongTerm kind))) LongTermKind.all =
      total (fun kind => mergeCount text (store.tiers.readLongTerm kind)) LongTermKind.all := by
  rw [total_eq_iff fun kind _ => length_leftBy_le _]
  constructor
  · intro undisturbed
    have whole : ∀ kind ∈ LongTermKind.all,
        (leftBy text index scrub kind (store.tiers.readLongTerm kind)).length =
          (store.tiers.readLongTerm kind).length := fun kind _ =>
      length_leftBy_eq.mpr ⟨undisturbed.stay kind, undisturbed.distinct kind⟩
    refine ⟨whole, (total_congr fun kind among => ?_).trans undisturbed.duplicates⟩
    exact mergeCount_leftBy (whole kind among)
  · rintro ⟨whole, duplicates⟩
    have kept (kind : LongTermKind) := length_leftBy_eq.mp (whole kind kind.mem_all)
    refine ⟨fun kind => (kept kind).1, fun kind => (kept kind).2, ?_⟩
    refine (total_congr fun kind among => ?_).trans duplicates
    exact (mergeCount_leftBy (whole kind among)).symm

/-! ## The passes of one run -/

section Passes

variable (text : TextFunctions) (service : MemoryService) (config : MemoryConfig)
  (index : DerivedIndex) (now : Stamp) (dryRun : Bool) (store : MemoryStore) (budget : Budget)

/-- The walk over the cards, after the expiry. -/
def cardPass : MemoryStore × Budget × Nat × Nat :=
  let expiry := expireEpisodes service config now dryRun store budget
  reconcileEntities service index dryRun expiry.1 expiry.2.1

/-- The walk over the lessons, after that over the cards. -/
def lessonPass : MemoryStore × Budget × Nat × Nat :=
  let cards := cardPass service config index now dryRun store budget
  reconcileLessons text service index dryRun LongTermKind.all cards.1 cards.2.1

/-- The merge, after the walk over the lessons. -/
def mergePass : MemoryStore × Budget × Nat :=
  let lessons := lessonPass text service config index now dryRun store budget
  mergeLongTermDuplicates text service dryRun LongTermKind.all lessons.1 lessons.2.1

theorem cleanupPasses_store :
    (cleanupPasses text service config index now dryRun store budget).1 =
      (mergePass text service config index now dryRun store budget).1 := by
  simp only [cleanupPasses, mergePass, lessonPass, cardPass]

theorem cleanupPasses_counts :
    (cleanupPasses text service config index now dryRun store budget).2.counts =
      ((mergePass text service config index now dryRun store budget).2.1.scanned,
        (expireEpisodes service config now dryRun store budget).2.2,
        (cardPass service config index now dryRun store budget).2.2.1 +
          (lessonPass text service config index now dryRun store budget).2.2.1,
        (cardPass service config index now dryRun store budget).2.2.2 +
          (lessonPass text service config index now dryRun store budget).2.2.2,
        (mergePass text service config index now dryRun store budget).2.2) := by
  simp only [cleanupPasses, CleanupReport.counts, mergePass, lessonPass, cardPass]

end Passes

theorem readEntities_expireEpisodes :
    (expireEpisodes service config now dryRun store budget).1.tiers.readEntities =
      store.tiers.readEntities :=
  congrArg (Option.getD · []) (expireEpisodes_others service config now dryRun store budget).2.1

theorem readLongTerm_cardPass :
    (cardPass service config index now dryRun store budget).1.tiers.readLongTerm kind =
      store.tiers.readLongTerm kind :=
  congrArg (fun files => (files kind).getD [])
    ((reconcileEntities_others service index dryRun _ _).2.trans
      (expireEpisodes_others service config now dryRun store budget).1)

theorem later_cardPass (store : MemoryStore) :
    Budget.Later budget (cardPass service config index now dryRun store budget).2.1 :=
  (later_expireEpisodes _ _).trans (later_reconcileEntities _ _)

theorem later_lessonPass (store : MemoryStore) :
    Budget.Later budget (lessonPass text service config index now dryRun store budget).2.1 :=
  (later_cardPass store).trans (later_reconcileLessons _ _ _)

/-- A dry run counts the same cards as a pass over the same files. -/
theorem cardPass_counts (same : first.tiers = store.tiers) :
    (cardPass service config index now dryRun first budget).2 =
      (cardPass service config index now other store budget).2 := by
  have expired : (expireEpisodes service config now dryRun first budget).2 =
      (expireEpisodes service config now other store budget).2 :=
    expireEpisodes_counts (congrArg Tiers.readEpisodes same)
  unfold cardPass
  dsimp only
  rw [expired]
  apply reconcileEntities_counts
  rw [readEntities_expireEpisodes, readEntities_expireEpisodes, same]

/-- A dry run counts the same lessons as a pass over the same files. -/
theorem lessonPass_counts (same : first.tiers = store.tiers) :
    (lessonPass text service config index now dryRun first budget).2 =
      (lessonPass text service config index now other store budget).2 := by
  have cards : (cardPass service config index now dryRun first budget).2 =
      (cardPass service config index now other store budget).2 := cardPass_counts same
  unfold lessonPass
  dsimp only
  rw [cards]
  apply reconcileLessons_counts LongTermKind.all_nodup
  intro kind _
  rw [readLongTerm_cardPass, readLongTerm_cardPass, same]

/-- The counts of a dry run and of a pass over the same files differ in the merge only. -/
theorem cleanupPasses_counts_iff (same : first.tiers = store.tiers) :
    (cleanupPasses text service config index now dryRun first budget).2.counts =
      (cleanupPasses text service config index now other store budget).2.counts ↔
    (mergePass text service config index now dryRun first budget).2.1.scanned =
        (mergePass text service config index now other store budget).2.1.scanned ∧
      (mergePass text service config index now dryRun first budget).2.2 =
        (mergePass text service config index now other store budget).2.2 := by
  have expired : (expireEpisodes service config now dryRun first budget).2 =
      (expireEpisodes service config now other store budget).2 :=
    expireEpisodes_counts (congrArg Tiers.readEpisodes same)
  have cards : (cardPass service config index now dryRun first budget).2 =
      (cardPass service config index now other store budget).2 := cardPass_counts same
  have lessons : (lessonPass text service config index now dryRun first budget).2 =
      (lessonPass text service config index now other store budget).2 := lessonPass_counts same
  rw [cleanupPasses_counts, cleanupPasses_counts, expired, cards, lessons]
  simp only [Prod.mk.injEq, true_and]

/-! ## Dry runs -/

theorem expireEpisodes_dry :
    (expireEpisodes service config now true store budget).1 = store := by
  unfold expireEpisodes
  dsimp only
  split
  · rfl
  · split <;> rfl

theorem cardPass_dry : (cardPass service config index now true store budget).1 = store := by
  unfold cardPass reconcileEntities
  dsimp only
  rw [expireEpisodes_dry]
  split
  · rfl
  · split <;> rfl

theorem lessonPass_dry :
    (lessonPass text service config index now true store budget).1 = store := by
  let unwritten (after : MemoryStore) : Prop := after = store
  have start : unwritten (cardPass service config index now true store budget).1 := cardPass_dry
  refine reconcileLessons_keeps (fun kind before spent same => ?_) LongTermKind.all _ start
  unfold reconcileKind
  dsimp only
  split
  · exact same
  · exact same

theorem mergeLongTermDuplicates_dry (kinds : List LongTermKind) :
    (mergeLongTermDuplicates text service true kinds store budget).1 = store := by
  induction kinds generalizing budget with
  | nil => rfl
  | cons kind kinds ih =>
      unfold mergeLongTermDuplicates
      dsimp only
      split
      · rfl
      · split
        · exact ih
        · exact ih

/-- A dry run writes nothing. -/
theorem cleanupPasses_dry :
    (cleanupPasses text service config index now true store budget).1 = store := by
  rw [cleanupPasses_store, mergePass, mergeLongTermDuplicates_dry]
  exact lessonPass_dry

theorem mergePass_dry (same : first.tiers = store.tiers) :
    (mergePass text service config index now true store budget).2 =
      (mergeLongTermDuplicates text service true LongTermKind.all store
        (lessonPass text service config index now false first budget).2.1).2 := by
  have spent : (lessonPass text service config index now true store budget).2 =
      (lessonPass text service config index now false first budget).2 :=
    lessonPass_counts same.symm
  rw [mergePass, lessonPass_dry, spent]

/-! ## Dry runs and cleanups -/

/-- A walk over the lessons that can act to its end leaves every file so. -/
theorem readLongTerm_lessonPass (same : first.tiers = store.tiers) (timely : budget.Timely)
    (acts : (lessonPass text service config index now false first budget).2.1.canAct.1 = true) :
    (lessonPass text service config index now false first budget).1.tiers.readLongTerm kind =
      leftBy text index service.redactText kind (store.tiers.readLongTerm kind) := by
  have walked := timely.of_later
    (later_cardPass first : Budget.Later budget (cardPass service config index now false _ _).2.1)
  refine (reconcileLessons_leaves LongTermKind.all_nodup _ walked acts kind.mem_all).trans ?_
  rw [readLongTerm_cardPass, same]

/-- A full dry run counts right exactly when the store is undisturbed. -/
theorem cleanupPasses_full (same : first.tiers = store.tiers) (full : budget.full = true) :
    (cleanupPasses text service config index now true store budget).2.counts =
      (cleanupPasses text service config index now false first budget).2.counts ↔
    Undisturbed text index service.redactText store := by
  let lessons := lessonPass text service config index now false first budget
  have every : lessons.2.1.full = true := (later_lessonPass first).full.trans full
  have acts : lessons.2.1.canAct.1 = true := congrArg Prod.fst (Budget.canAct_of_full every)
  have left (kind : LongTermKind) : lessons.1.tiers.readLongTerm kind =
      leftBy text index service.redactText kind (store.tiers.readLongTerm kind) :=
    readLongTerm_lessonPass same (.inl full) acts
  have counted (dryRun : Bool) (store : MemoryStore) :=
    mergeLongTermDuplicates_full text service dryRun store LongTermKind.all_nodup every
  rw [cleanupPasses_counts_iff same.symm, mergePass_dry same, (counted true store).1,
    (counted true store).2, mergePass, (counted false lessons.1).1, (counted false lessons.1).2,
    undisturbed_iff]
  simp only [left]
  omega

/-- A budget that allows nothing more merges nothing. -/
theorem mergeLongTermDuplicates_stopped {kinds : List LongTermKind}
    (stops : budget.canAct.1 = false) :
    (mergeLongTermDuplicates text service dryRun kinds first budget).2 =
      (mergeLongTermDuplicates text service other kinds store budget).2 := by
  cases kinds with
  | nil => rfl
  | cons kind kinds =>
      unfold mergeLongTermDuplicates
      dsimp only
      rw [stops]
      rfl

/-- Within any budget a dry run counts right when no file loses a row or changes its duplicates. A
walk that is cut short leaves nothing to the merge. -/
theorem cleanupPasses_budgeted (same : first.tiers = store.tiers) (timely : budget.Timely)
    (undisturbed : Undisturbed text index service.redactText store)
    (each : ∀ kind, mergeCount text (rewritten text index service.redactText kind
      (store.tiers.readLongTerm kind)) = mergeCount text (store.tiers.readLongTerm kind)) :
    (cleanupPasses text service config index now true store budget).2.counts =
      (cleanupPasses text service config index now false first budget).2.counts := by
  let lessons := lessonPass text service config index now false first budget
  have merges : (mergePass text service config index now true store budget).2 =
      (mergePass text service config index now false first budget).2 := by
    rw [mergePass_dry same, mergePass]
    by_cases acts : lessons.2.1.canAct.1 = true
    · have left (kind : LongTermKind) : lessons.1.tiers.readLongTerm kind =
          leftBy text index service.redactText kind (store.tiers.readLongTerm kind) :=
        readLongTerm_lessonPass same timely acts
      have whole (kind : LongTermKind) :
          (leftBy text index service.redactText kind (store.tiers.readLongTerm kind)).length =
            (store.tiers.readLongTerm kind).length :=
        length_leftBy_eq.mpr ⟨undisturbed.stay kind, undisturbed.distinct kind⟩
      refine mergeLongTermDuplicates_counts LongTermKind.all_nodup (fun kind _ => ?_)
        fun kind _ => ?_
      · rw [left, whole]
      · rw [left, mergeCount_leftBy (whole kind), each]
    · exact mergeLongTermDuplicates_stopped (Bool.eq_false_iff.mpr acts)
  exact (cleanupPasses_counts_iff same.symm).mpr
    ⟨congrArg (fun merge => merge.1.scanned) merges, congrArg Prod.snd merges⟩

theorem runOnce_counts (full : Bool) (clock : Nat → Bool) (some : store.tiers.anyFile = true) :
    (runOnce text service config index now dryRun clock full store).2.counts =
      (cleanupPasses text service config index now dryRun (store.started text now dryRun)
        (config.budget clock full)).2.counts := by
  unfold runOnce MemoryStore.started CleanupReport.counts
  rw [if_neg (by simp [some])]

/-- A dry run writes nothing. A full one counts what the cleanup would exactly when the store is
undisturbed; one within a budget does when, moreover, every file keeps its duplicates. -/
theorem dryRun_counts (text : TextFunctions) (service : MemoryService) (config : MemoryConfig)
    (index : DerivedIndex) (now : Stamp) (full : Bool) (clock : Nat → Bool)
    (store : MemoryStore) :
    let dry := runOnce text service config index now true clock full store
    let wet := runOnce text service config index now false clock full store
    dry.1 = store ∧
    (full = true → (dry.2.counts = wet.2.counts ↔
      Undisturbed text index service.redactText store)) ∧
    ((∀ reading, clock (reading + 1) = true → clock reading = true) →
      Undisturbed text index service.redactText store →
      (∀ kind, mergeCount text (rewritten text index service.redactText kind
        (store.tiers.readLongTerm kind)) = mergeCount text (store.tiers.readLongTerm kind)) →
      dry.2.counts = wet.2.counts) := by
  intro dry wet
  by_cases some : store.tiers.anyFile = true
  · have same : (store.started text now false).tiers = store.tiers :=
      MemoryStore.started_tiers now false store
    have dryCounts : dry.2.counts = (cleanupPasses text service config index now true store
        (config.budget clock full)).2.counts := runOnce_counts full clock some
    have wetCounts : wet.2.counts = (cleanupPasses text service config index now false
        (store.started text now false) (config.budget clock full)).2.counts :=
      runOnce_counts full clock some
    rw [dryCounts, wetCounts]
    refine ⟨?_, fun every => cleanupPasses_full same every, fun ahead undisturbed each => ?_⟩
    · rw [runOnce_store, if_pos some]
      exact cleanupPasses_dry
    · exact cleanupPasses_budgeted same (.inr ahead) undisturbed each
  · have none (dryRun : Bool) : runOnce text service config index now dryRun clock full store =
        (store, { ran := false }) := by
      unfold runOnce
      rw [if_pos (by simp [some])]
    obtain ⟨-, -, lessons⟩ := MemoryStore.rows_of_no_file some
    have counts : dry.2.counts = wet.2.counts :=
      congrArg (fun run => run.2.counts) ((none true).trans (none false).symm)
    refine ⟨congrArg Prod.fst (none true), fun _ => iff_of_true counts ⟨?_, ?_, ?_⟩,
      fun _ _ _ => counts⟩
    · intro kind
      rw [lessons]
      rfl
    · intro kind moves
      rw [lessons] at moves
      cases moves
    · refine total_congr fun kind _ => ?_
      rw [lessons]
      rfl

/-- Two lessons of one subject, the first about a file that is not at its path. -/
def goneStore : MemoryStore := semanticStore
  [{ startLesson "ltm_1" "Startup order" "" with scope := some { paths := ["src/app.py"] } },
    startLesson "ltm_2" "startup order" ""]

/-- The counts of a full run on New Year's Day in a repository with these files. -/
def newYearCounts (listed : List String) (dryRun : Bool) : Int × Nat × Nat × Nat × Nat :=
  (runOnce sampleText plainService {} (.ofListed listed fun _ => false)
    (midnight "2026-01-01" 1) dryRun (fun _ => true) true goneStore).2.counts

set_option maxRecDepth 4000 in
/-- A dry run counts a merge with a lesson that the cleanup holds back before it merges. -/
theorem dryRun_counts_held_back : newYearCounts [] true = (4, 0, 0, 1, 1) ∧
    newYearCounts [] false = (3, 0, 0, 1, 0) := by
  constructor <;> decide +kernel

/-- Where the file has moved, the store is undisturbed: the counts agree, also within a budget. -/
theorem dryRun_counts_movedFile :
    let index : DerivedIndex := .ofListed ["lib/app.py"] fun _ => false
    let run (dryRun full : Bool) := runOnce sampleText plainService {} index
      (midnight "2026-01-01" 1) dryRun (fun _ => true) full goneStore
    Undisturbed sampleText index plainService.redactText goneStore ∧
      (run true false).2.counts = (run false false).2.counts := by
  intro index run
  have full := dryRun_counts sampleText plainService {} index (midnight "2026-01-01" 1) true
    (fun _ => true) goneStore
  have bounded := dryRun_counts sampleText plainService {} index (midnight "2026-01-01" 1) false
    (fun _ => true) goneStore
  have undisturbed : Undisturbed sampleText index plainService.redactText goneStore :=
    (full.2.1 rfl).mp (by decide +kernel)
  refine ⟨undisturbed, bounded.2.2 (fun _ _ => rfl) undisturbed fun kind => ?_⟩
  cases kind <;> decide +kernel

end Orchestrator.Memory
