import Orchestrator.Foundation.PosixPath
import Orchestrator.Memory.Service

/-! # The cleanup pass

Expired episodes are pruned, cards and lessons whose files have moved are remapped or
held in quarantine, and lessons of one subject are merged, all within a budget. A dry
run only counts.
-/

namespace Orchestrator.Memory

open Orchestrator.Foundation

/-! ## The live repository -/

/-- The tracked paths, in normal form, and what else exists on disk. -/
structure DerivedIndex where
  tracked : List String
  onDisk : String → Bool
  normal : ∀ path ∈ tracked, PosixPath.asPosix path = path

namespace DerivedIndex

/-- The index of what `git ls-files` lists. -/
def ofListed (listed : List String) (onDisk : String → Bool) : DerivedIndex where
  tracked := (listed.map PosixPath.asPosix).dedup
  onDisk
  normal := by
    intro path among
    obtain ⟨given, -, rfl⟩ := List.mem_map.mp (List.mem_dedup.mp among)
    exact PosixPath.asPosix_asPosix given

variable (index : DerivedIndex)

/-- `path_exists`. -/
def pathExists (path : String) : Bool :=
  decide (PosixPath.asPosix path ∈ index.tracked) || index.onDisk (PosixPath.asPosix path)

/-- `find_by_basename`: the other tracked paths of the same name. -/
def findByBasename (path : String) : List String :=
  Text.sorted (index.tracked.filter fun other =>
    other ≠ PosixPath.asPosix path && PosixPath.name other = PosixPath.name path)

theorem tracked_of_mem_findByBasename {path other : String}
    (among : other ∈ index.findByBasename path) : other ∈ index.tracked :=
  (List.mem_filter.mp ((List.perm_insertionSort (· ≤ ·) _).mem_iff.mp among)).1

/-- The candidates for a moved file exist. -/
theorem pathExists_of_mem_findByBasename {path other : String}
    (among : other ∈ index.findByBasename path) : index.pathExists other = true := by
  have tracked := index.tracked_of_mem_findByBasename among
  rw [pathExists, index.normal other tracked, decide_eq_true tracked, Bool.true_or]

/-- The paths with every missing one replaced by the one candidate for it, and whether one was;
none if a missing path has not one candidate. -/
def remapPaths : List String → Option (List String × Bool)
  | [] => some ([], false)
  | path :: rest =>
      if index.pathExists path then
        (remapPaths rest).map fun (paths, moved) => (path :: paths, moved)
      else match index.findByBasename path with
        | [candidate] => (remapPaths rest).map fun (paths, _) => (candidate :: paths, true)
        | _ => none

end DerivedIndex

/-! ## The budget -/

/-- `_Budget`. A reading of the clock says whether the pass is still within its time; a full pass
does not read it. -/
structure Budget where
  full : Bool
  maxScanned : Int
  maxEdits : Int
  clock : Nat → Bool
  readings : Nat := 0
  scanned : Int := 0
  edits : Int := 0

namespace Budget

variable (budget : Budget)

def withinClock : Bool × Budget :=
  if budget.full then (true, budget)
  else (budget.clock budget.readings, { budget with readings := budget.readings + 1 })

def canScan : Bool × Budget :=
  let (within, read) := budget.withinClock
  (within && (budget.full || decide (budget.scanned < budget.maxScanned)), read)

def canEdit : Bool × Budget :=
  let (within, read) := budget.withinClock
  (within && (budget.full || decide (budget.edits < budget.maxEdits)), read)

/-- `can_scan() and can_edit()`: the second is not asked when the first refuses. -/
def canAct : Bool × Budget :=
  let (scans, read) := budget.canScan
  if scans then read.canEdit else (false, read)

def scan (rows : Nat) : Budget := { budget with scanned := budget.scanned + rows }

/-- `allow_edits`. -/
def allowEdits (wanted : Nat) : Nat :=
  if budget.full then wanted
  else (max 0 (min (wanted : Int) (budget.maxEdits - budget.edits))).toNat

def spendEdits (edits : Nat) : Budget := { budget with edits := budget.edits + edits }

end Budget

/-- The budget of a pass. -/
def MemoryConfig.budget (config : MemoryConfig) (clock : Nat → Bool) (full : Bool) : Budget where
  full
  maxScanned := config.cleanupMaxScanned
  maxEdits := config.cleanupMaxEdits
  clock

/-! ## Episodes -/

/-- `_episode_expired`. -/
def EpisodeRow.expired (row : EpisodeRow) (now : Stamp) (ttlDays : Int) : Bool :=
  match row.expiresAt.bind Stamp.instant, now.instant with
  | some explicit, some now => decide (explicit ≤ now)
  | some _, none => false
  | none, none => false
  | none, some now =>
      match row.createdAt.bind Stamp.instant with
      | some created => decide (created < now - ttlDays * microsPerDay)
      | none => false

/-- `str(_episode_id(row))`. -/
def EpisodeRow.idText (row : EpisodeRow) : String := row.id.getD "None"

/-- The expired episodes, the oldest first. -/
def expiredEpisodes (config : MemoryConfig) (now : Stamp) (rows : List EpisodeRow) :
    List EpisodeRow :=
  (rows.filter fun row => row.expired now config.shortTermTtlDays).mergeSort
    fun first second => decide (((first.createdAt.map Stamp.text).getD "") ≤
      ((second.createdAt.map Stamp.text).getD ""))

variable (text : TextFunctions) (service : MemoryService) (config : MemoryConfig)
  (index : DerivedIndex) (now : Stamp) (dryRun : Bool)

/-- `_expire_episodes`. -/
def expireEpisodes (store : MemoryStore) (budget : Budget) : MemoryStore × Budget × Nat :=
  let rows := store.tiers.readEpisodes
  if rows = [] then (store, budget, 0)
  else
    let expired := expiredEpisodes config now rows
    let scanned := budget.scan rows.length
    let take := scanned.allowEdits expired.length
    if take = 0 then (store, scanned, 0)
    else
      let dropIds := (expired.take take).map EpisodeRow.idText
      let kept := rows.filter fun row => row.idText ∉ dropIds
      (if dryRun then store else store.replaceEpisodes service kept .prune,
        scanned.spendEdits take, take)

/-! ## Stale rows -/

/-- What becomes of a row whose paths are looked up. -/
inductive Verdict (α : Type) where
  | fresh
  | remap (moved : α)
  | quarantine (held : α)

/-- `_classify_entity`. -/
def classifyEntity (row : EntityRow) : Verdict EntityRow :=
  if row.paths = [] then .fresh
  else match index.remapPaths row.paths with
    | none => .quarantine { row with status := some "quarantined" }
    | some (_, false) => .fresh
    | some (paths, true) => .remap { row with paths, canonicalName := paths.head? }

/-- `_classify_lesson`. -/
def classifyLesson (kind : LongTermKind) (row : LongTermRow) : Verdict LongTermRow :=
  match row.scope with
  | none => .fresh
  | some scope =>
      if scope.paths = [] then .fresh
      else match index.remapPaths scope.paths with
        | none => .quarantine { row with status := some "quarantined" }
        | some (_, false) => .fresh
        | some (paths, true) => .remap { row with
            scope := some { scope with paths }
            memoryId := some (deriveLongTermId text kind (row.subject.getD "") paths) }

section Verdicts

variable {text index}

theorem classifyEntity_eq_remap {row moved : EntityRow}
    (verdict : classifyEntity index row = .remap moved) : ∃ paths, row.paths ≠ [] ∧
      index.remapPaths row.paths = some (paths, true) ∧
      moved = { row with paths, canonicalName := paths.head? } := by
  unfold classifyEntity at verdict
  split at verdict
  · cases verdict
  · rename_i pathed
    split at verdict
    · cases verdict
    · cases verdict
    · rename_i paths found
      cases verdict
      exact ⟨paths, pathed, found, rfl⟩

theorem classifyEntity_eq_quarantine {row held : EntityRow}
    (verdict : classifyEntity index row = .quarantine held) :
    held = { row with status := some "quarantined" } := by
  unfold classifyEntity at verdict
  split at verdict
  · cases verdict
  · split at verdict <;> cases verdict
    rfl

theorem classifyLesson_eq_remap {kind : LongTermKind} {row moved : LongTermRow}
    (verdict : classifyLesson text index kind row = .remap moved) :
    ∃ scope paths, row.scope = some scope ∧ scope.paths ≠ [] ∧
      index.remapPaths scope.paths = some (paths, true) ∧
      moved = { row with
        scope := some { scope with paths }
        memoryId := some (deriveLongTermId text kind (row.subject.getD "") paths) } := by
  unfold classifyLesson at verdict
  split at verdict
  · cases verdict
  · rename_i scope named
    split at verdict
    · cases verdict
    · rename_i pathed
      split at verdict
      · cases verdict
      · cases verdict
      · rename_i paths found
        cases verdict
        exact ⟨scope, paths, named, pathed, found, rfl⟩

theorem classifyLesson_eq_quarantine {kind : LongTermKind} {row held : LongTermRow}
    (verdict : classifyLesson text index kind row = .quarantine held) :
    held = { row with status := some "quarantined" } := by
  unfold classifyLesson at verdict
  split at verdict
  · cases verdict
  · split at verdict
    · cases verdict
    · split at verdict <;> cases verdict
      rfl

/-- The first of remapped paths is the first path, or one that is tracked. -/
theorem DerivedIndex.remapPaths_head {path : String} {rest paths : List String} {moved : Bool}
    (found : index.remapPaths (path :: rest) = some (paths, moved)) :
    ∃ first, paths.head? = some first ∧ (first = path ∨ first ∈ index.tracked) := by
  rw [remapPaths] at found
  split at found
  · obtain ⟨⟨later, others⟩, -, same⟩ := Option.map_eq_some_iff.mp found
    cases same
    exact ⟨path, rfl, .inl rfl⟩
  · split at found
    · rename_i candidate single
      obtain ⟨⟨later, others⟩, -, same⟩ := Option.map_eq_some_iff.mp found
      cases same
      have among : candidate ∈ index.findByBasename path := single ▸ List.mem_singleton_self _
      exact ⟨candidate, rfl, .inr (index.tracked_of_mem_findByBasename among)⟩
    · cases found

end Verdicts

/-- What a walk over rows leaves: those kept, those to be held in quarantine, how many were remapped
and the budget. -/
structure Reconciled (α : Type) where
  kept : List α
  held : List α
  remapped : Nat
  budget : Budget

/-- The walk of `_reconcile_entities` and `_reconcile_lessons`: rows the budget does not reach and
inactive ones are kept as they are. -/
def reconcileRows {α : Type} (active : α → Bool) (classify : α → Verdict α) :
    List α → Budget → Reconciled α
  | [], budget => ⟨[], [], 0, budget⟩
  | row :: rest, budget =>
      let (acts, read) := budget.canAct
      if acts && active row then
        match classify row with
        | .fresh =>
            let later := reconcileRows active classify rest (read.scan 1)
            { later with kept := row :: later.kept }
        | .remap moved =>
            let later := reconcileRows active classify rest ((read.scan 1).spendEdits 1)
            { later with kept := moved :: later.kept, remapped := later.remapped + 1 }
        | .quarantine held =>
            let later := reconcileRows active classify rest ((read.scan 1).spendEdits 1)
            { later with held := held :: later.held }
      else
        let later := reconcileRows active classify rest read
        { later with kept := row :: later.kept }

/-- `str(row.get(key) or f"\0{index}")` for every row: rows without a key stand for themselves. -/
def positionKeys {α : Type} (key : α → Option String) (rows : List α) : List (String × α) :=
  rows.zipIdx.map fun (row, position) =>
    (((key row).filter fun id => id ≠ "").getD ("\x00" ++ toString position), row)

/-- The tasks of two rows together. -/
def unionTasks (first second : List String) : List String := (first ++ second).eraseDups

/-- `_collapse_entities`: the latest card of a name, with the tasks of them all. -/
def collapseEntities (rows : List EntityRow) : List EntityRow :=
  (collapse (fun keeper row => { row with
      lastSeenTaskIds := unionTasks keeper.lastSeenTaskIds row.lastSeenTaskIds })
    (positionKeys EntityRow.canonicalName rows)).map Prod.snd

/-- `_absorb`: the evidence and the tasks of another row are added to the keeper's. -/
def LongTermRow.absorb (keeper other : LongTermRow) : LongTermRow :=
  let seen := unionTasks keeper.seenTaskIds other.seenTaskIds
  { keeper with
    evidence := unionEvidence keeper.evidence other.evidence
    seenTaskIds := seen
    usageCount := some (max (keeper.usageCount.getD 0) seen.length) }

/-- `_collapse_by_memory_id`. -/
def collapseByMemoryId (rows : List LongTermRow) : List LongTermRow :=
  (collapse LongTermRow.absorb (positionKeys LongTermRow.memoryId rows)).map Prod.snd

/-- `_reconcile_entities`: the cards remapped and those quarantined. -/
def reconcileEntities (store : MemoryStore) (budget : Budget) :
    MemoryStore × Budget × Nat × Nat :=
  let rows := store.tiers.readEntities
  if rows = [] then (store, budget, 0, 0)
  else
    let walk := reconcileRows (fun row : EntityRow => isActive row.status) (classifyEntity index)
      rows budget
    if walk.remapped = 0 ∧ walk.held = [] then (store, walk.budget, 0, 0)
    else
      let replaced := store.replaceEntities service (collapseEntities walk.kept) .merge
      let pending := store.tiers.readPending ++ walk.held.map .entity
      let quarantined := if walk.held = [] then replaced
        else replaced.replacePending service pending (pending.filterMap PendingRow.idOf) .quarantine
      (if dryRun then store else quarantined, walk.budget, walk.remapped, walk.held.length)

/-- One kind of `_reconcile_lessons`, once its file is known to hold rows. -/
def reconcileKind (kind : LongTermKind) (store : MemoryStore) (budget : Budget) :
    MemoryStore × Budget × Nat × Nat :=
  let walk := reconcileRows (fun row : LongTermRow => isActive row.status)
    (classifyLesson text index kind) (store.tiers.readLongTerm kind) budget
  if walk.remapped = 0 ∧ walk.held = [] then (store, walk.budget, 0, 0)
  else
    let collapsed := collapseByMemoryId walk.kept
    let replaced := store.replaceLongTerm service kind collapsed
      (collapsed.filterMap LongTermRow.idOf) (if walk.remapped = 0 then .quarantine else .merge)
    let pending := store.tiers.readPending ++ walk.held.map .lesson
    let quarantined := if walk.held = [] then replaced
      else replaced.replacePending service pending (pending.filterMap PendingRow.idOf) .quarantine
    (if dryRun then store else quarantined, walk.budget, walk.remapped, walk.held.length)

/-- `_reconcile_lessons` over some kinds: the lessons remapped and those quarantined. -/
def reconcileLessons : List LongTermKind → MemoryStore → Budget → MemoryStore × Budget × Nat × Nat
  | [], store, budget => (store, budget, 0, 0)
  | kind :: kinds, store, budget =>
      let (acts, read) := budget.canAct
      if !acts then (store, read, 0, 0)
      else if store.tiers.readLongTerm kind = [] then reconcileLessons kinds store read
      else
        let (here, spent, remapped, quarantined) := reconcileKind text service index dryRun kind
          store read
        let (final, rest, remappedLater, quarantinedLater) := reconcileLessons kinds here spent
        (final, rest, remapped + remappedLater, quarantined + quarantinedLater)

/-! ## Duplicate lessons -/

/-- The keys of `_collapse_duplicates`: the normalized subject, or the row itself without one. -/
def subjectKeys (rows : List LongTermRow) : List ((Option String × Nat) × LongTermRow) :=
  rows.zipIdx.map fun (row, position) =>
    (match row.subject with
      | some subject => (some (normalizeSubject text subject), 0)
      | none => (none, position), row)

/-- `_collapse_duplicates`: the rows left. -/
def collapseDuplicates (rows : List LongTermRow) : List LongTermRow :=
  (collapse LongTermRow.absorb (subjectKeys text rows)).map Prod.snd

/-- `_collapse_duplicates`: how many rows are merged into others. -/
def mergeCount (rows : List LongTermRow) : Nat :=
  rows.length - (collapseDuplicates text rows).length

/-- `_merge_long_term_duplicates` over some kinds: a file is collapsed within the budget or not at
all. -/
def mergeLongTermDuplicates : List LongTermKind → MemoryStore → Budget → MemoryStore × Budget × Nat
  | [], store, budget => (store, budget, 0)
  | kind :: kinds, store, budget =>
      let (acts, read) := budget.canAct
      if !acts then (store, read, 0)
      else
        let rows := store.tiers.readLongTerm kind
        let scanned := read.scan rows.length
        let merges := mergeCount text rows
        if merges = 0 ∨ scanned.allowEdits merges < merges then
          mergeLongTermDuplicates kinds store scanned
        else
          let collapsed := collapseDuplicates text rows
          let merged := if dryRun then store
            else store.replaceLongTerm service kind collapsed
              (collapsed.filterMap LongTermRow.idOf) .merge
          let (final, rest, later) := mergeLongTermDuplicates kinds merged
            (scanned.spendEdits merges)
          (final, rest, merges + later)

/-! ## One pass -/

structure CleanupReport where
  ran : Bool
  scanned : Int := 0
  expired : Nat := 0
  remapped : Nat := 0
  quarantined : Nat := 0
  merged : Nat := 0
  snapshot : Option String := none

/-- `_safe_label`. -/
def safeLabel (label : String) : String :=
  let safe := String.ofList (label.toList.map fun letter =>
    if text.isAlnum letter || letter ∈ ['-', '_', '.'] then letter else '-')
  if safe = "" then "snapshot" else safe

/-- `take_snapshot`: the tier files that exist are copied over an earlier snapshot of the label. -/
def MemoryStore.snapshot (store : MemoryStore) (label : String) : MemoryStore :=
  { store with
    snapshots := Function.update store.snapshots label
      (some (store.tiers.overlay ((store.snapshots label).getD {}))) }

@[simp] theorem MemoryStore.snapshot_tiers (store : MemoryStore) (label : String) :
    (store.snapshot label).tiers = store.tiers := rfl

/-- The four passes of `run_once` on a store and a budget. -/
def cleanupPasses (store : MemoryStore) (budget : Budget) : MemoryStore × CleanupReport :=
  let (expiring, budget, expired) := expireEpisodes service config now dryRun store budget
  let (reconciling, budget, remapped, quarantined) :=
    reconcileEntities service index dryRun expiring budget
  let (merging, budget, lessonRemapped, lessonQuarantined) :=
    reconcileLessons text service index dryRun LongTermKind.all reconciling budget
  let (final, budget, merged) :=
    mergeLongTermDuplicates text service dryRun LongTermKind.all merging budget
  (final, {
    ran := true
    scanned := budget.scanned
    expired
    remapped := remapped + lessonRemapped
    quarantined := quarantined + lessonQuarantined
    merged })

/-- `run_once`: one pass, after a snapshot unless it is a dry run. -/
def runOnce (clock : Nat → Bool) (full : Bool) (store : MemoryStore) :
    MemoryStore × CleanupReport :=
  if !store.tiers.anyFile then (store, { ran := false })
  else
    let label := safeLabel text ("cleanup-" ++ now.text)
    let started := if dryRun then store else store.snapshot label
    let (final, report) := cleanupPasses text service config index now dryRun started
      (config.budget clock full)
    (final, { report with snapshot := if dryRun then none else some label })

end Orchestrator.Memory
