import Orchestrator.Memory.SecondPass

/-! # Dry runs

A dry run writes nothing and counts what every pass finds in the files as they are. The
last pass of a real cleanup finds what the pass over lessons has left, so the counts agree
when that pass drops no lesson and changes no subject.
-/

namespace Orchestrator.Memory

open Orchestrator.Foundation

variable (text : TextFunctions) (index : DerivedIndex) (scrub : String → String)
  (kind : LongTermKind)

/-- A cleanup moves the lesson to other paths. -/
def movesLesson (row : LongTermRow) : Bool :=
  isActive row.status && match classifyLesson text index kind row with
    | .remap _ => true
    | _ => false

/-- A cleanup holds the lesson back. -/
def strandsLesson (row : LongTermRow) : Bool :=
  isActive row.status && match classifyLesson text index kind row with
    | .quarantine _ => true
    | _ => false

/-- What a full walk makes of a lesson that stays. -/
def settleLesson (row : LongTermRow) : Option LongTermRow :=
  if isActive row.status then
    match classifyLesson text index kind row with
    | .fresh => some row
    | .remap moved => some moved
    | .quarantine _ => none
  else some row

/-- What a full walk leaves of a file. -/
def leftBy (rows : List LongTermRow) : List LongTermRow :=
  if rows.any (movesLesson text index kind) || rows.any (strandsLesson text index kind) then
    (collapseByMemoryId (rows.filterMap (settleLesson text index kind))).map
      (LongTermRow.redact scrub)
  else rows

/-- The sum over some kinds. -/
def total (count : LongTermKind → Nat) (kinds : List LongTermKind) : Nat :=
  kinds.foldr (fun kind sum => count kind + sum) 0

/-- The counts of a report. -/
def CleanupReport.counts (report : CleanupReport) : Int × Nat × Nat × Nat × Nat :=
  (report.scanned, report.expired, report.remapped, report.quarantined, report.merged)

variable {text index scrub kind} {service : MemoryService} {config : MemoryConfig} {now : Stamp}
  {first second store : MemoryStore} {budget : Budget} {dryRun other : Bool}

theorem total_cons (count : LongTermKind → Nat) (kind : LongTermKind) (kinds : List LongTermKind) :
    total count (kind :: kinds) = count kind + total count kinds := rfl

theorem total_congr {count other : LongTermKind → Nat} {kinds : List LongTermKind}
    (same : ∀ kind ∈ kinds, count kind = other kind) : total count kinds = total other kinds := by
  induction kinds with
  | nil => rfl
  | cons kind kinds ih =>
      obtain ⟨here, later⟩ := List.forall_mem_cons.mp same
      rw [total_cons, total_cons, here, ih later]

theorem total_le {count other : LongTermKind → Nat} {kinds : List LongTermKind}
    (le : ∀ kind ∈ kinds, count kind ≤ other kind) : total count kinds ≤ total other kinds := by
  induction kinds with
  | nil => exact Nat.le_refl 0
  | cons kind kinds ih =>
      obtain ⟨here, later⟩ := List.forall_mem_cons.mp le
      exact Nat.add_le_add here (ih later)

/-- Sums of counts that are bounded one by one are equal only when the counts are. -/
theorem total_eq_iff {count other : LongTermKind → Nat} {kinds : List LongTermKind}
    (le : ∀ kind ∈ kinds, count kind ≤ other kind) :
    total count kinds = total other kinds ↔ ∀ kind ∈ kinds, count kind = other kind := by
  refine ⟨fun same => ?_, total_congr⟩
  induction kinds with
  | nil => exact fun kind none => absurd none List.not_mem_nil
  | cons kind kinds ih =>
      obtain ⟨here, later⟩ := List.forall_mem_cons.mp le
      have rest : total count kinds ≤ total other kinds := total_le later
      have both : count kind + total count kinds = other kind + total other kinds := same
      have first : count kind = other kind := by omega
      have tail : total count kinds = total other kinds := by omega
      exact List.forall_mem_cons.mpr ⟨first, ih later tail⟩

/-! ## Counts of the passes -/

theorem expireEpisodes_counts (same : first.tiers.readEpisodes = second.tiers.readEpisodes) :
    (expireEpisodes service config now dryRun first budget).2 =
      (expireEpisodes service config now other second budget).2 := by
  unfold expireEpisodes
  rw [same]
  dsimp only
  split
  · rfl
  · split <;> rfl

theorem reconcileEntities_counts (same : first.tiers.readEntities = second.tiers.readEntities) :
    (reconcileEntities service index dryRun first budget).2 =
      (reconcileEntities service index other second budget).2 := by
  unfold reconcileEntities
  rw [same]
  dsimp only
  split
  · rfl
  · split <;> rfl

theorem reconcileKind_counts (kind : LongTermKind) (budget : Budget)
    (same : first.tiers.readLongTerm kind = second.tiers.readLongTerm kind) :
    (reconcileKind text service index dryRun kind first budget).2 =
      (reconcileKind text service index other kind second budget).2 := by
  unfold reconcileKind
  rw [same]
  dsimp only
  split <;> rfl

/-- The walk over lessons finds every file as it was before the walk. -/
theorem reconcileLessons_counts {kinds : List LongTermKind} (distinct : kinds.Nodup)
    (same : ∀ kind ∈ kinds, first.tiers.readLongTerm kind = second.tiers.readLongTerm kind) :
    (reconcileLessons text service index dryRun kinds first budget).2 =
      (reconcileLessons text service index other kinds second budget).2 := by
  induction kinds generalizing first second budget with
  | nil => rfl
  | cons kind kinds ih =>
      obtain ⟨absent, distinct⟩ := List.nodup_cons.mp distinct
      obtain ⟨here, later⟩ := List.forall_mem_cons.mp same
      unfold reconcileLessons
      dsimp only
      split
      · rfl
      · rw [here]
        split
        · exact ih distinct later
        · have counts : (reconcileKind text service index dryRun kind first budget.canAct.2).2 =
              (reconcileKind text service index other kind second budget.canAct.2).2 :=
            reconcileKind_counts kind budget.canAct.2 here
          have rest : ∀ next ∈ kinds,
              (reconcileKind text service index dryRun kind first
                budget.canAct.2).1.tiers.readLongTerm next =
              (reconcileKind text service index other kind second
                budget.canAct.2).1.tiers.readLongTerm next := by
            intro next among
            have apart : next ≠ kind := fun same => absent (same ▸ among)
            rw [reconcileKind_other apart, reconcileKind_other apart]
            exact later next among
          generalize reconcileKind text service index dryRun kind first budget.canAct.2 = left
            at counts rest
          generalize reconcileKind text service index other kind second budget.canAct.2 = right
            at counts rest
          obtain ⟨leftStore, leftCounts⟩ := left
          obtain ⟨rightStore, rightCounts⟩ := right
          cases counts
          have tail : (reconcileLessons text service index dryRun kinds leftStore
              leftCounts.1).2 = (reconcileLessons text service index other kinds rightStore
                leftCounts.1).2 := ih distinct rest
          exact congrArg (fun counts : Budget × Nat × Nat =>
            (counts.1, leftCounts.2.1 + counts.2.1, leftCounts.2.2 + counts.2.2)) tail

theorem readLongTerm_merged {kind next : LongTermKind} (apart : next ≠ kind)
    {rows : List LongTermRow} {ids : List String} :
    (if dryRun then store else store.replaceLongTerm service kind rows ids
      .merge).tiers.readLongTerm next = store.tiers.readLongTerm next := by
  split
  · rfl
  · rw [MemoryStore.readLongTerm_replaceLongTerm, if_neg apart]

/-- Files of equal sizes with as many duplicates are merged with equal counts. -/
theorem mergeLongTermDuplicates_counts {kinds : List LongTermKind} (distinct : kinds.Nodup)
    (sizes : ∀ kind ∈ kinds, (first.tiers.readLongTerm kind).length =
      (second.tiers.readLongTerm kind).length)
    (merges : ∀ kind ∈ kinds, mergeCount text (first.tiers.readLongTerm kind) =
      mergeCount text (second.tiers.readLongTerm kind)) :
    (mergeLongTermDuplicates text service dryRun kinds first budget).2 =
      (mergeLongTermDuplicates text service other kinds second budget).2 := by
  induction kinds generalizing first second budget with
  | nil => rfl
  | cons kind kinds ih =>
      obtain ⟨absent, distinct⟩ := List.nodup_cons.mp distinct
      obtain ⟨size, sizes⟩ := List.forall_mem_cons.mp sizes
      obtain ⟨merge, merges⟩ := List.forall_mem_cons.mp merges
      unfold mergeLongTermDuplicates
      dsimp only
      rw [size, merge]
      split
      · rfl
      · split
        · exact ih distinct sizes merges
        · have others : ∀ next ∈ kinds, next ≠ kind := fun next among same => absent (same ▸ among)
          refine congrArg (fun counts : Budget × Nat =>
            (counts.1, mergeCount text (second.tiers.readLongTerm kind) + counts.2))
            (ih distinct ?_ ?_)
          · intro next among
            rw [readLongTerm_merged (others next among), readLongTerm_merged (others next among)]
            exact sizes next among
          · intro next among
            rw [readLongTerm_merged (others next among), readLongTerm_merged (others next among)]
            exact merges next among

variable (text service dryRun) in
/-- A full merge scans every row and counts every duplicate. -/
theorem mergeLongTermDuplicates_full {kinds : List LongTermKind} (store : MemoryStore)
    (distinct : kinds.Nodup) (full : budget.full = true) :
    let result := (mergeLongTermDuplicates text service dryRun kinds store budget).2
    result.1.scanned = budget.scanned +
        total (fun kind => (store.tiers.readLongTerm kind).length) kinds ∧
      result.2 = total (fun kind => mergeCount text (store.tiers.readLongTerm kind)) kinds := by
  induction kinds generalizing store budget with
  | nil => exact ⟨(Int.add_zero _).symm, rfl⟩
  | cons kind kinds ih =>
      obtain ⟨absent, distinct⟩ := List.nodup_cons.mp distinct
      have scanned : (budget.scan (store.tiers.readLongTerm kind).length).full = true := full
      unfold mergeLongTermDuplicates
      rw [Budget.canAct_of_full full]
      dsimp only
      rw [if_neg (by decide), Budget.allowEdits_of_full scanned]
      split
      · rename_i none
        have merges : mergeCount text (store.tiers.readLongTerm kind) = 0 :=
          none.resolve_right (lt_irrefl _)
        have tail := ih store distinct scanned
        refine ⟨tail.1.trans ?_, tail.2.trans ?_⟩
        · rw [total_cons, Budget.scan]
          dsimp only
          omega
        · rw [total_cons, merges, Nat.zero_add]
      · have others : ∀ next ∈ kinds, next ≠ kind := fun next among same => absent (same ▸ among)
        let collapsed := collapseDuplicates text (store.tiers.readLongTerm kind)
        let merged := if dryRun then store else store.replaceLongTerm service kind collapsed
          (collapsed.filterMap LongTermRow.idOf) .merge
        have unread : ∀ next ∈ kinds,
            merged.tiers.readLongTerm next = store.tiers.readLongTerm next :=
          fun next among => readLongTerm_merged (others next among)
        let spent := (budget.scan (store.tiers.readLongTerm kind).length).spendEdits
          (mergeCount text (store.tiers.readLongTerm kind))
        have every : spent.full = true := full
        have tail := ih merged distinct every
        have sizes : total (fun kind => (merged.tiers.readLongTerm kind).length) kinds =
            total (fun kind => (store.tiers.readLongTerm kind).length) kinds :=
          total_congr fun next among => congrArg List.length (unread next among)
        have merges : total (fun kind => mergeCount text (merged.tiers.readLongTerm kind)) kinds =
            total (fun kind => mergeCount text (store.tiers.readLongTerm kind)) kinds :=
          total_congr fun next among => congrArg (mergeCount text) (unread next among)
        refine ⟨tail.1.trans ?_, ?_⟩
        · rw [sizes, total_cons]
          dsimp only [spent, Budget.spendEdits, Budget.scan]
          omega
        · rw [total_cons, ← merges]
          exact congrArg (_ + ·) tail.2

/-! ## What a full walk leaves -/

theorem settleLesson_eq_none {row : LongTermRow} :
    settleLesson text index kind row = none ↔ strandsLesson text index kind row = true := by
  unfold settleLesson strandsLesson
  by_cases active : isActive row.status = true
  · rw [if_pos active, active, Bool.true_and]
    cases classifyLesson text index kind row <;> simp
  · rw [if_neg active, Bool.eq_false_iff.mpr active, Bool.false_and]
    simp

theorem settleLesson_subject {row settled : LongTermRow}
    (stays : settleLesson text index kind row = some settled) : settled.subject = row.subject := by
  unfold settleLesson at stays
  split at stays
  · split at stays
    · cases stays
      rfl
    · rename_i moved verdict
      cases stays
      obtain ⟨scope, paths, -, -, -, rfl⟩ := classifyLesson_eq_remap verdict
      rfl
    · cases stays
  · cases stays
    rfl

variable (text index kind) in
/-- A walk that can act to its end keeps what its rows are made, and counts those it moves and holds
back. -/
theorem reconcileRows_lessons (rows : List LongTermRow) (budget : Budget)
    (timely : budget.Timely)
    (acts : (reconcileRows (fun row : LongTermRow => isActive row.status)
      (classifyLesson text index kind) rows budget).budget.canAct.1 = true) :
    let walk := reconcileRows (fun row : LongTermRow => isActive row.status)
      (classifyLesson text index kind) rows budget
    walk.kept = rows.filterMap (settleLesson text index kind) ∧
      (walk.remapped = 0 ↔ rows.any (movesLesson text index kind) = false) ∧
      (walk.held = [] ↔ rows.any (strandsLesson text index kind) = false) := by
  induction rows generalizing budget with
  | nil => exact ⟨rfl, iff_of_true rfl rfl, iff_of_true rfl rfl⟩
  | cons row rest ih =>
      have here : budget.canAct.1 = true :=
        (later_reconcileRows _ _ (row :: rest) budget).canAct timely acts
      have rested : budget.canAct.2.Timely := timely.of_later budget.later_canAct
      rw [reconcileRows] at acts ⊢
      rw [List.filterMap_cons, List.any_cons, List.any_cons]
      simp only [here, Bool.true_and, settleLesson, movesLesson, strandsLesson] at acts ⊢
      by_cases active : isActive row.status = true
      · simp only [active, if_true, Bool.true_and] at acts ⊢
        cases verdict : classifyLesson text index kind row with
        | fresh =>
            rw [verdict] at acts
            obtain ⟨kept, moved, held⟩ := ih (budget.canAct.2.scan 1) rested acts
            exact ⟨congrArg (row :: ·) kept, moved, held⟩
        | remap moved =>
            rw [verdict] at acts
            obtain ⟨kept, -, held⟩ := ih ((budget.canAct.2.scan 1).spendEdits 1) rested acts
            exact ⟨congrArg (moved :: ·) kept, by simp, held⟩
        | quarantine copy =>
            rw [verdict] at acts
            obtain ⟨kept, moved, -⟩ := ih ((budget.canAct.2.scan 1).spendEdits 1) rested acts
            exact ⟨kept, moved, by simp⟩
      · simp only [active, Bool.false_and, Bool.false_or, Bool.false_eq_true, if_false] at acts ⊢
        obtain ⟨kept, moved, held⟩ := ih budget.canAct.2 rested acts
        exact ⟨congrArg (row :: ·) kept, moved, held⟩

/-- A walk over the lessons of a kind that can act to its end leaves their file so. -/
theorem reconcileKind_leaves (store : MemoryStore) (timely : budget.Timely)
    (acts : (reconcileKind text service index false kind store budget).2.1.canAct.1 = true) :
    (reconcileKind text service index false kind store budget).1.tiers.readLongTerm kind =
      leftBy text index service.redactText kind (store.tiers.readLongTerm kind) := by
  rw [reconcileKind_budget] at acts
  obtain ⟨kept, moved, held⟩ := reconcileRows_lessons text index kind
    (store.tiers.readLongTerm kind) budget timely acts
  unfold reconcileKind leftBy
  dsimp only
  by_cases unmoved : (reconcileRows (fun row : LongTermRow => isActive row.status)
      (classifyLesson text index kind) (store.tiers.readLongTerm kind) budget).remapped = 0 ∧
    (reconcileRows (fun row : LongTermRow => isActive row.status)
      (classifyLesson text index kind) (store.tiers.readLongTerm kind) budget).held = []
  · rw [if_pos unmoved, moved.mp unmoved.1, held.mp unmoved.2]
    rfl
  · have changed : ((store.tiers.readLongTerm kind).any (movesLesson text index kind) ||
        (store.tiers.readLongTerm kind).any (strandsLesson text index kind)) = true := by
      by_contra none
      rw [Bool.or_eq_true, not_or, Bool.not_eq_true, Bool.not_eq_true] at none
      exact unmoved ⟨moved.mpr none.1, held.mpr none.2⟩
    rw [if_neg unmoved, if_neg Bool.false_ne_true, ite_replacePending_tiers, if_pos changed, kept]
    change (Function.update store.tiers.longTerm kind (some _) kind).getD [] = _
    rw [Function.update_self]
    rfl

theorem reconcileLessons_other {kinds : List LongTermKind} {kind : LongTermKind}
    (absent : kind ∉ kinds) :
    (reconcileLessons text service index dryRun kinds store budget).1.tiers.readLongTerm kind =
      store.tiers.readLongTerm kind := by
  induction kinds generalizing store budget with
  | nil => rfl
  | cons first kinds ih =>
      rw [List.mem_cons, not_or] at absent
      unfold reconcileLessons
      dsimp only
      split
      · rfl
      · split
        · exact ih absent.2
        · rw [ih absent.2, reconcileKind_other absent.1]

/-- A walk over kinds that can act to its end leaves their files so. -/
theorem reconcileLessons_leaves {kinds : List LongTermKind} (distinct : kinds.Nodup)
    (store : MemoryStore) (timely : budget.Timely)
    (acts : (reconcileLessons text service index false kinds store budget).2.1.canAct.1 = true)
    {kind : LongTermKind} (among : kind ∈ kinds) :
    (reconcileLessons text service index false kinds store budget).1.tiers.readLongTerm kind =
      leftBy text index service.redactText kind (store.tiers.readLongTerm kind) := by
  induction kinds generalizing store budget with
  | nil => cases among
  | cons first kinds ih =>
      obtain ⟨absent, distinct⟩ := List.nodup_cons.mp distinct
      have here : budget.canAct.1 = true :=
        (later_reconcileLessons (first :: kinds) store budget).canAct timely acts
      have rested : budget.canAct.2.Timely := timely.of_later budget.later_canAct
      unfold reconcileLessons at acts ⊢
      dsimp only at acts ⊢
      rw [here, if_neg (by decide)] at acts ⊢
      split
      · rename_i empty
        rw [if_pos empty] at acts
        rcases List.mem_cons.mp among with rfl | later
        · rw [reconcileLessons_other absent, empty]
          rfl
        · exact ih distinct store rested acts later
      · rename_i some
        rw [if_neg some] at acts
        dsimp only at acts
        rcases List.mem_cons.mp among with rfl | later
        · have walked : (reconcileKind text service index false kind store
              budget.canAct.2).2.1.canAct.1 = true :=
            (later_reconcileLessons kinds _ _).canAct
              (rested.of_later (later_reconcileKind _ _ _)) acts
          rw [reconcileLessons_other absent, reconcileKind_leaves store rested walked]
        · have apart : kind ≠ first := fun same => absent (same ▸ later)
          rw [ih distinct _ (rested.of_later (later_reconcileKind _ _ _)) acts later,
            reconcileKind_other apart]

/-! ## Sizes and duplicates of what is left -/

/-- The keys of the rows of a file. -/
def idKeys (rows : List LongTermRow) : List String :=
  (positionKeys LongTermRow.memoryId rows).map Prod.fst

theorem idKeys_length (rows : List LongTermRow) : (idKeys rows).length = rows.length := by
  rw [idKeys, List.length_map, positionKeys, List.length_map, List.length_zipIdx]

theorem collapseByMemoryId_of_nodup {rows : List LongTermRow} (distinct : (idKeys rows).Nodup) :
    collapseByMemoryId rows = rows := by
  rw [collapseByMemoryId, collapse_of_nodup distinct, positionKeys_map_snd]

theorem length_collapseByMemoryId_le (rows : List LongTermRow) :
    (collapseByMemoryId rows).length ≤ rows.length := by
  rw [collapseByMemoryId, List.length_map, collapse_length, ← idKeys_length rows, idKeys]
  exact (List.dedup_sublist _).length_le

/-- No row is lost by id exactly when the keys are distinct. -/
theorem length_collapseByMemoryId_eq {rows : List LongTermRow} :
    (collapseByMemoryId rows).length = rows.length ↔ (idKeys rows).Nodup := by
  constructor
  · intro same
    rw [collapseByMemoryId, List.length_map, collapse_length, ← idKeys_length rows] at same
    have all : (idKeys rows).dedup = idKeys rows :=
      (List.dedup_sublist _).eq_of_length same
    exact all ▸ List.nodup_dedup _
  · intro distinct
    rw [collapseByMemoryId_of_nodup distinct]

theorem length_filterMap_settle {rows : List LongTermRow} :
    (rows.filterMap (settleLesson text index kind)).length = rows.length ↔
      rows.any (strandsLesson text index kind) = false := by
  induction rows with
  | nil => exact iff_of_true rfl rfl
  | cons row rest ih =>
      rw [List.filterMap_cons, List.any_cons, Bool.or_eq_false_iff]
      cases settled : settleLesson text index kind row with
      | none =>
          have strands := settleLesson_eq_none.mp settled
          have short := List.length_filterMap_le (settleLesson text index kind) rest
          dsimp only
          rw [strands, List.length_cons]
          constructor
          · intro same
            omega
          · rintro ⟨stays, -⟩
            cases stays
      | some stays =>
          have kept : strandsLesson text index kind row = false :=
            Bool.eq_false_iff.mpr fun strands => by
              rw [settleLesson_eq_none.mpr strands] at settled
              cases settled
          dsimp only
          rw [kept, List.length_cons, List.length_cons, Nat.add_right_cancel_iff, ih]
          exact (and_iff_right rfl).symm

theorem length_leftBy_le (rows : List LongTermRow) :
    (leftBy text index scrub kind rows).length ≤ rows.length := by
  unfold leftBy
  split
  · rw [List.length_map]
    exact (length_collapseByMemoryId_le _).trans (List.length_filterMap_le _ _)
  · exact Nat.le_refl _

/-- A walk leaves as many rows when it holds none back and the keys stay distinct. -/
theorem length_leftBy_eq {rows : List LongTermRow} :
    (leftBy text index scrub kind rows).length = rows.length ↔
      rows.any (strandsLesson text index kind) = false ∧
        (rows.any (movesLesson text index kind) = true →
          (idKeys (rows.filterMap (settleLesson text index kind))).Nodup) := by
  unfold leftBy
  have short := List.length_filterMap_le (settleLesson text index kind) rows
  have less := length_collapseByMemoryId_le (rows.filterMap (settleLesson text index kind))
  cases strands : rows.any (strandsLesson text index kind) with
  | true =>
      rw [Bool.or_true, if_pos rfl, List.length_map]
      constructor
      · intro same
        have kept : (rows.filterMap (settleLesson text index kind)).length = rows.length := by omega
        rw [length_filterMap_settle.mp kept] at strands
        cases strands
      · rintro ⟨none, -⟩
        cases none
  | false =>
      have kept := length_filterMap_settle.mpr strands
      rw [Bool.or_false]
      cases moves : rows.any (movesLesson text index kind) with
      | true =>
          rw [if_pos rfl, List.length_map, ← length_collapseByMemoryId_eq, kept]
          exact ⟨fun same => ⟨rfl, fun _ => same⟩, fun both => both.2 rfl⟩
      | false => exact iff_of_true rfl ⟨rfl, fun some => (Bool.false_ne_true some).elim⟩

end Orchestrator.Memory
