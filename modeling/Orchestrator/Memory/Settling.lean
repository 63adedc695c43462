import Orchestrator.Memory.Survival
import Orchestrator.Memory.Window

/-! # A second pass

A full pass leaves no expired episode, no active row with a missing path and no two
lessons of one subject, as long as redaction leaves what it looks at as it is; a full
pass over such a store changes nothing.
-/

namespace Orchestrator.Memory

open Orchestrator.Foundation

variable {text : TextFunctions} {index : DerivedIndex} {scrub : String → String}

/-! ## Full budgets -/

namespace Budget

variable {budget : Budget}

theorem canAct_of_full (full : budget.full = true) : budget.canAct = (true, budget) := by
  simp [canAct, canScan, canEdit, withinClock, full]

theorem allowEdits_of_full (full : budget.full = true) (wanted : Nat) :
    budget.allowEdits wanted = wanted :=
  if_pos full

@[simp] theorem scan_full (rows : Nat) : (budget.scan rows).full = budget.full := rfl

@[simp] theorem spendEdits_full (edits : Nat) : (budget.spendEdits edits).full = budget.full := rfl

end Budget

/-! ## Paths -/

theorem DerivedIndex.remapPaths_of_pathExists {paths : List String}
    (present : ∀ path ∈ paths, index.pathExists path = true) :
    index.remapPaths paths = some (paths, false) := by
  induction paths with
  | nil => rfl
  | cons path rest ih =>
      obtain ⟨here, later⟩ := List.forall_mem_cons.mp present
      rw [remapPaths, if_pos here, ih later, Option.map_some]

/-- Remapped paths exist, and each is an old one or tracked. -/
theorem DerivedIndex.remapPaths_spec {paths found : List String} {moved : Bool}
    (remapped : index.remapPaths paths = some (found, moved)) :
    (∀ path ∈ found, index.pathExists path = true ∧ (path ∈ paths ∨ path ∈ index.tracked)) ∧
      (moved = false → found = paths) := by
  induction paths generalizing found moved with
  | nil =>
      cases remapped
      exact ⟨fun path none => absurd none List.not_mem_nil, fun _ => rfl⟩
  | cons path rest ih =>
      have later {found : List String} {moved : Bool}
          (remapped : index.remapPaths rest = some (found, moved)) :
          ∀ other ∈ found, index.pathExists other = true ∧
            (other ∈ path :: rest ∨ other ∈ index.tracked) := by
        intro other among
        obtain ⟨present, origin⟩ := (ih remapped).1 other among
        exact ⟨present, origin.imp_left (List.mem_cons_of_mem _)⟩
      rw [remapPaths] at remapped
      split at remapped
      · rename_i present
        obtain ⟨⟨others, also⟩, rested, same⟩ := Option.map_eq_some_iff.mp remapped
        cases same
        refine ⟨List.forall_mem_cons.mpr ⟨⟨present, .inl List.mem_cons_self⟩, later rested⟩, ?_⟩
        exact fun unmoved => congrArg (path :: ·) ((ih rested).2 unmoved)
      · split at remapped
        · rename_i candidate single
          obtain ⟨⟨others, also⟩, rested, same⟩ := Option.map_eq_some_iff.mp remapped
          cases same
          have among : candidate ∈ index.findByBasename path := single ▸ List.mem_singleton_self _
          refine ⟨List.forall_mem_cons.mpr ⟨⟨?_, ?_⟩, later rested⟩, fun unmoved => ?_⟩
          · exact index.pathExists_of_mem_findByBasename among
          · exact .inr (index.tracked_of_mem_findByBasename among)
          · cases unmoved
        · cases remapped

theorem classifyEntity_eq_fresh {row : EntityRow} :
    classifyEntity index row = .fresh ↔ ∀ path ∈ row.paths, index.pathExists path = true := by
  constructor
  · intro verdict
    unfold classifyEntity at verdict
    split at verdict
    · rename_i none
      exact fun path among => absurd (none ▸ among) List.not_mem_nil
    · split at verdict
      · cases verdict
      · rename_i found remapped
        obtain ⟨present, unmoved⟩ := DerivedIndex.remapPaths_spec remapped
        exact fun path among => (present path (unmoved rfl ▸ among)).1
      · cases verdict
  · intro present
    rw [classifyEntity, DerivedIndex.remapPaths_of_pathExists present]
    exact ite_self _

theorem classifyLesson_eq_fresh {kind : LongTermKind} {row : LongTermRow} :
    classifyLesson text index kind row = .fresh ↔
      ∀ scope ∈ row.scope, ∀ path ∈ scope.paths, index.pathExists path = true := by
  constructor
  · intro verdict scope named
    rw [Option.mem_def] at named
    unfold classifyLesson at verdict
    rw [named] at verdict
    dsimp only at verdict
    split at verdict
    · rename_i none
      exact fun path among => absurd (none ▸ among) List.not_mem_nil
    · split at verdict
      · cases verdict
      · rename_i found remapped
        obtain ⟨present, unmoved⟩ := DerivedIndex.remapPaths_spec remapped
        exact fun path among => (present path (unmoved rfl ▸ among)).1
      · cases verdict
  · intro present
    unfold classifyLesson
    cases named : row.scope with
    | none => rfl
    | some scope =>
        dsimp only
        rw [DerivedIndex.remapPaths_of_pathExists (present scope named)]
        exact ite_self _

/-! ## Subjects -/

/-- The normalized subjects of lessons. -/
def subjectsOf (text : TextFunctions) (rows : List LongTermRow) : List String :=
  rows.filterMap fun row => row.subject.map (normalizeSubject text)

theorem subjectsOf_cons_some {row : LongTermRow} {subject : String}
    (named : row.subject = some subject) (rest : List LongTermRow) :
    subjectsOf text (row :: rest) = normalizeSubject text subject :: subjectsOf text rest := by
  rw [subjectsOf, List.filterMap_cons, named]
  rfl

theorem subjectsOf_cons_none {row : LongTermRow} (named : row.subject = none)
    (rest : List LongTermRow) : subjectsOf text (row :: rest) = subjectsOf text rest := by
  rw [subjectsOf, List.filterMap_cons, named]
  rfl

/-- The key of a lesson at a position, among subjects. -/
def subjectKeyAt (text : TextFunctions) (entry : LongTermRow × Nat) : Option String × Nat :=
  match entry.1.subject with
  | some subject => (some (normalizeSubject text subject), 0)
  | none => (none, entry.2)

theorem subjectKeyAt_some {row : LongTermRow} {subject : String}
    (named : row.subject = some subject) (position : Nat) :
    subjectKeyAt text (row, position) = (some (normalizeSubject text subject), 0) := by
  rw [subjectKeyAt, named]

theorem subjectKeyAt_none {row : LongTermRow} (named : row.subject = none) (position : Nat) :
    subjectKeyAt text (row, position) = (none, position) := by
  rw [subjectKeyAt, named]

theorem mem_map_subjectKeyAt {rows : List LongTermRow} {start : Nat} {subject : String} :
    (some subject, 0) ∈ (rows.zipIdx start).map (subjectKeyAt text) ↔
      subject ∈ subjectsOf text rows := by
  induction rows generalizing start with
  | nil => simp [subjectsOf]
  | cons row rest ih =>
      rw [List.zipIdx_cons, List.map_cons, List.mem_cons, ih]
      cases named : row.subject with
      | none => rw [subjectKeyAt_none named, subjectsOf_cons_none named]; simp
      | some own => rw [subjectKeyAt_some named, subjectsOf_cons_some named]; simp

theorem nodup_map_subjectKeyAt {rows : List LongTermRow} {start : Nat} :
    ((rows.zipIdx start).map (subjectKeyAt text)).Nodup ↔ (subjectsOf text rows).Nodup := by
  induction rows generalizing start with
  | nil => simp [subjectsOf]
  | cons row rest ih =>
      rw [List.zipIdx_cons, List.map_cons, List.nodup_cons, ih]
      cases named : row.subject with
      | none =>
          rw [subjectKeyAt_none named, subjectsOf_cons_none named]
          refine and_iff_right fun among => ?_
          obtain ⟨⟨other, position⟩, member, same⟩ := List.mem_map.mp among
          have later := List.le_snd_of_mem_zipIdx member
          cases others : other.subject with
          | none =>
              rw [subjectKeyAt_none others] at same
              exact absurd (congrArg Prod.snd same) (Nat.ne_of_gt later)
          | some subject =>
              rw [subjectKeyAt_some others] at same
              cases congrArg Prod.fst same
      | some own =>
          rw [subjectKeyAt_some named, subjectsOf_cons_some named, mem_map_subjectKeyAt,
            List.nodup_cons]

/-- Nothing is merged exactly when the subjects are distinct. -/
theorem mergeCount_eq_zero {rows : List LongTermRow} :
    mergeCount text rows = 0 ↔ (subjectsOf text rows).Nodup := by
  have keys : (subjectKeys text rows).map Prod.fst =
      (rows.zipIdx 0).map (subjectKeyAt text) := by
    rw [subjectKeys, List.map_map]
    rfl
  have size : ((rows.zipIdx 0).map (subjectKeyAt text)).length = rows.length := by
    rw [List.length_map, List.length_zipIdx]
  rw [mergeCount, collapseDuplicates, List.length_map, collapse_length, keys, ← size,
    Nat.sub_eq_zero_iff_le, ← nodup_map_subjectKeyAt]
  constructor
  · intro long
    have same := (List.dedup_sublist _).eq_of_length_le long
    exact same ▸ List.nodup_dedup _
  · intro distinct
    rw [List.Nodup.dedup distinct]

/-- Lessons merged by subject have distinct subjects. -/
theorem subjectsOf_collapseDuplicates_nodup (rows : List LongTermRow) :
    (subjectsOf text (collapseDuplicates text rows)).Nodup := by
  have keyed : ∀ entry ∈ collapse LongTermRow.absorb (subjectKeys text rows),
      entry.1.1 = entry.2.subject.map (normalizeSubject text) ∧
        (entry.1.1 ≠ none → entry.1.2 = 0) := by
    let holds (key : Option String × Nat) (row : LongTermRow) : Prop :=
      key.1 = row.subject.map (normalizeSubject text) ∧ (key.1 ≠ none → key.2 = 0)
    have closed (key : Option String × Nat) (keeper row : LongTermRow)
        (own : holds key keeper) (_ : holds key row) : holds key (keeper.absorb row) := own
    have start : ∀ entry ∈ subjectKeys text rows, holds entry.1 entry.2 := by
      intro entry among
      obtain ⟨⟨row, position⟩, -, rfl⟩ := List.mem_map.mp among
      dsimp only [holds]
      cases row.subject with
      | none => exact ⟨rfl, fun some => absurd rfl some⟩
      | some subject => exact ⟨rfl, fun _ => rfl⟩
    exact forall_mem_collapse closed start
  have distinct : ((collapse LongTermRow.absorb (subjectKeys text rows)).map Prod.fst).Nodup :=
    collapse_nodup _
  have apart := List.pairwise_map.mp distinct
  rw [subjectsOf, collapseDuplicates, List.filterMap_map, List.Nodup, List.pairwise_filterMap]
  refine apart.imp_of_mem fun {first second} early late differs => ?_
  intro subject named other otherNamed same
  subst same
  obtain ⟨firstKey, firstZero⟩ := keyed first early
  obtain ⟨secondKey, secondZero⟩ := keyed second late
  have firstSubject : first.1.1 = some subject := firstKey.trans named
  have secondSubject : second.1.1 = some subject := secondKey.trans otherNamed
  refine differs (Prod.ext (firstSubject.trans secondSubject.symm) ?_)
  rw [firstZero (firstSubject ▸ Option.some_ne_none _),
    secondZero (secondSubject ▸ Option.some_ne_none _)]

/-! ## What a pass looks at -/

/-- Redaction leaves the paths and the state of a card as they are. -/
structure EntityRow.Stable (scrub : String → String) (row : EntityRow) : Prop where
  paths : ∀ path ∈ row.paths, scrub path = path
  status : row.status.map scrub = row.status

/-- Redaction leaves the subject, the paths and the state of a lesson as they are. -/
structure LongTermRow.Stable (scrub : String → String) (row : LongTermRow) : Prop where
  subject : row.subject.map scrub = row.subject
  paths : ∀ scope ∈ row.scope, ∀ path ∈ scope.paths, scrub path = path
  status : row.status.map scrub = row.status

theorem EntityRow.Stable.redact_paths {row : EntityRow} (stable : row.Stable scrub) :
    (row.redact scrub).paths = row.paths :=
  (List.map_congr_left stable.paths).trans (List.map_id' _)

theorem LongTermRow.Stable.redact_scope {row : LongTermRow} (stable : row.Stable scrub)
    {scope : Scope} (named : (row.redact scrub).scope = some scope) :
    ∃ old, row.scope = some old ∧ scope.paths = old.paths := by
  obtain ⟨old, own, rfl⟩ := Option.map_eq_some_iff.mp named
  exact ⟨old, own, (List.map_congr_left (stable.paths old own)).trans (List.map_id' _)⟩

/-- An active card whose paths are there, as redaction leaves it. -/
structure EntityRow.Settled (index : DerivedIndex) (scrub : String → String)
    (row : EntityRow) : Prop extends row.Stable scrub where
  fresh : isActive row.status = true → classifyEntity index row = .fresh

/-- An active lesson whose paths are there, as redaction leaves it. -/
structure LongTermRow.Settled (text : TextFunctions) (index : DerivedIndex)
    (scrub : String → String) (kind : LongTermKind) (row : LongTermRow) : Prop
    extends row.Stable scrub where
  fresh : isActive row.status = true → classifyLesson text index kind row = .fresh

theorem EntityRow.Settled.redact {row : EntityRow} (settled : row.Settled index scrub) :
    (row.redact scrub).Settled index scrub := by
  have paths := settled.toStable.redact_paths
  have status : (row.redact scrub).status = row.status := settled.status
  refine ⟨⟨?_, ?_⟩, fun active => ?_⟩
  · rw [paths]
    exact settled.paths
  · rw [status]
    exact settled.status
  · rw [classifyEntity_eq_fresh, paths]
    rw [status] at active
    exact classifyEntity_eq_fresh.mp (settled.fresh active)

theorem LongTermRow.Stable.redact {row : LongTermRow} (stable : row.Stable scrub) :
    (row.redact scrub).Stable scrub := by
  have subject : (row.redact scrub).subject = row.subject := stable.subject
  have status : (row.redact scrub).status = row.status := stable.status
  refine ⟨subject ▸ stable.subject, ?_, status ▸ stable.status⟩
  intro scope named path among
  obtain ⟨old, own, same⟩ := stable.redact_scope named
  exact stable.paths old own path (same ▸ among)

theorem LongTermRow.Settled.redact {kind : LongTermKind} {row : LongTermRow}
    (settled : row.Settled text index scrub kind) :
    (row.redact scrub).Settled text index scrub kind := by
  refine ⟨settled.toStable.redact, fun active => ?_⟩
  have status : (row.redact scrub).status = row.status := settled.status
  rw [status] at active
  rw [classifyLesson_eq_fresh]
  intro scope named path among
  obtain ⟨old, own, same⟩ := settled.toStable.redact_scope named
  exact classifyLesson_eq_fresh.mp (settled.fresh active) old own path (same ▸ among)

/-- A card moved to tracked paths is settled. -/
theorem EntityRow.Stable.remapped {row moved : EntityRow} (stable : row.Stable scrub)
    (tracked : ∀ path ∈ index.tracked, scrub path = path)
    (verdict : classifyEntity index row = .remap moved) : moved.Settled index scrub := by
  obtain ⟨paths, -, found, rfl⟩ := classifyEntity_eq_remap verdict
  have spec := (DerivedIndex.remapPaths_spec found).1
  refine ⟨⟨fun path among => ?_, stable.status⟩, fun _ => classifyEntity_eq_fresh.mpr ?_⟩
  · exact (spec path among).2.elim (stable.paths path) (tracked path)
  · exact fun path among => (spec path among).1

/-- A lesson moved to tracked paths is settled. -/
theorem LongTermRow.Stable.remapped {kind : LongTermKind} {row moved : LongTermRow}
    (stable : row.Stable scrub) (tracked : ∀ path ∈ index.tracked, scrub path = path)
    (verdict : classifyLesson text index kind row = .remap moved) :
    moved.Settled text index scrub kind := by
  obtain ⟨scope, paths, named, -, found, rfl⟩ := classifyLesson_eq_remap verdict
  have spec := (DerivedIndex.remapPaths_spec found).1
  refine ⟨⟨stable.subject, ?_, stable.status⟩, fun _ => classifyLesson_eq_fresh.mpr ?_⟩
  · intro other own path among
    cases Option.some.inj own
    exact (spec path among).2.elim (stable.paths scope named path) (tracked path)
  · intro other own path among
    cases Option.some.inj own
    exact (spec path among).1

/-! ## A full walk -/

/-- With a full budget every active row is looked at: one that is kept is fresh, or was moved. -/
theorem mem_reconcileRows_full {α : Type} {active : α → Bool} {classify : α → Verdict α}
    {rows : List α} {budget : Budget} (full : budget.full = true) {row : α}
    (among : row ∈ (reconcileRows active classify rows budget).kept) :
    (row ∈ rows ∧ (active row = true → classify row = .fresh)) ∨
      ∃ old ∈ rows, classify old = .remap row := by
  induction rows generalizing budget with
  | nil => cases among
  | cons first rest ih =>
      have later : ∀ {budget : Budget},
          row ∈ (reconcileRows active classify rest budget).kept → budget.full = true →
          (row ∈ first :: rest ∧ (active row = true → classify row = .fresh)) ∨
            ∃ old ∈ first :: rest, classify old = .remap row := by
        intro budget found full
        rcases ih full found with ⟨old, fresh⟩ | ⟨old, member, remapped⟩
        · exact .inl ⟨List.mem_cons_of_mem _ old, fresh⟩
        · exact .inr ⟨old, List.mem_cons_of_mem _ member, remapped⟩
      rw [reconcileRows, Budget.canAct_of_full full] at among
      dsimp only at among
      split at among
      · split at among
        · rename_i verdict
          rcases List.mem_cons.mp among with rfl | found
          · exact .inl ⟨List.mem_cons_self, fun _ => verdict⟩
          · exact later found full
        · rename_i moved verdict
          rcases List.mem_cons.mp among with rfl | found
          · exact .inr ⟨first, List.mem_cons_self, verdict⟩
          · exact later found full
        · exact later among full
      · rename_i inactive
        rw [Bool.true_and] at inactive
        rcases List.mem_cons.mp among with rfl | found
        · exact .inl ⟨List.mem_cons_self, fun acts => absurd acts inactive⟩
        · exact later found full

/-- A full walk that moves nothing and holds nothing back has found every active row fresh. -/
theorem fresh_of_reconcileRows {α : Type} {active : α → Bool} {classify : α → Verdict α}
    {rows : List α} {budget : Budget} (full : budget.full = true)
    (unmoved : (reconcileRows active classify rows budget).remapped = 0)
    (unheld : (reconcileRows active classify rows budget).held = []) :
    ∀ row ∈ rows, active row = true → classify row = .fresh := by
  induction rows generalizing budget with
  | nil => exact fun row none => absurd none List.not_mem_nil
  | cons first rest ih =>
      rw [reconcileRows, Budget.canAct_of_full full] at unmoved unheld
      dsimp only at unmoved unheld
      split at unmoved
      · rename_i acts
        rw [if_pos acts] at unheld
        split at unmoved
        · rename_i verdict
          rw [verdict] at unheld
          exact List.forall_mem_cons.mpr ⟨fun _ => verdict, ih (by exact full) unmoved unheld⟩
        · cases unmoved
        · rename_i copy verdict
          rw [verdict] at unheld
          cases unheld
      · rename_i inactive
        rw [if_neg inactive] at unheld
        rw [Bool.true_and] at inactive
        exact List.forall_mem_cons.mpr
          ⟨fun acts => absurd acts inactive, ih (by exact full) unmoved unheld⟩

/-- A walk over fresh rows moves nothing and holds nothing back. -/
theorem reconcileRows_of_fresh {α : Type} {active : α → Bool} {classify : α → Verdict α}
    {rows : List α} (fresh : ∀ row ∈ rows, active row = true → classify row = .fresh)
    (budget : Budget) : (reconcileRows active classify rows budget).remapped = 0 ∧
      (reconcileRows active classify rows budget).held = [] := by
  induction rows generalizing budget with
  | nil => exact ⟨rfl, rfl⟩
  | cons first rest ih =>
      obtain ⟨here, later⟩ := List.forall_mem_cons.mp fresh
      rw [reconcileRows]
      dsimp only
      split
      · rename_i acts
        rw [here (Bool.and_eq_true_iff.mp acts).2]
        exact ih later _
      · exact ih later _

end Orchestrator.Memory
