import Orchestrator.Scheduling.Dependencies

/-! # What releases a dependent task

A dependency counts as merged when it is done and no pull request of it is recorded, or the
recorded one is reported merged. The first case says nothing about the base branch.
-/

namespace Orchestrator.Scheduling

open Orchestrator.Foundation
open Orchestrator.Store (Database PublishOpRow)

/-! ## Cycles -/

section Cycle

variable {next : String → List String} {start : String}

/-- What has been seen stays seen. -/
theorem mem_visit_of_mem {node : String} : ∀ {fuel : Nat} {stack seen : List String},
    node ∈ seen → node ∈ SuccessorGraph.visit next fuel stack seen
  | 0, _, _, known => known
  | _ + 1, [], _, known => known
  | fuel + 1, top :: stack, seen, known => by
      rw [SuccessorGraph.visit]
      split
      · exact mem_visit_of_mem known
      · exact mem_visit_of_mem (List.mem_cons_of_mem _ known)

/-- The loop answers whether the search finds the start. -/
theorem inCycleLoop_iff : ∀ (fuel : Nat) (stack seen : List String), start ∉ seen →
    (inCycleLoop next start fuel stack seen = true ↔
      start ∈ SuccessorGraph.visit next fuel stack seen)
  | 0, _, _, fresh => iff_of_false Bool.false_ne_true fresh
  | _ + 1, [], _, fresh => iff_of_false Bool.false_ne_true fresh
  | fuel + 1, node :: stack, seen, fresh => by
      rw [inCycleLoop, SuccessorGraph.visit]
      by_cases found : node = start
      · subst found
        rw [if_pos rfl, if_neg fresh]
        exact iff_of_true rfl (mem_visit_of_mem List.mem_cons_self)
      · rw [if_neg found]
        split
        · exact inCycleLoop_iff fuel stack seen fresh
        · apply inCycleLoop_iff fuel
          exact List.not_mem_cons_of_ne_of_not_mem (Ne.symm found) fresh

end Cycle

/-- A task that reaches itself over pending tasks. -/
def Pending.OnCycle (pending : Pending) (taskId : String) : Prop :=
  Relation.TransGen pending.graph.Step taskId taskId

theorem inCycle_iff {pending : Pending} {taskId : String} :
    inCycle taskId pending = true ↔ pending.OnCycle taskId := by
  have found := pending.graph.mem_reachableFrom_iff (pending.next taskId).reverse taskId
  rw [inCycle, inCycleLoop_iff _ _ _ List.not_mem_nil, Pending.OnCycle, Relation.TransGen.head'_iff]
  refine found.trans (exists_congr fun root => and_congr_left fun _ => ?_)
  exact List.mem_reverse

/-! ## Facts about a dependency -/

section Facts

variable (world : World) (pending : Pending) (dep : String)

/-- The addresses that the store or the ledger has for the pull request of a task. -/
def World.pullRequestsOf : List String :=
  (recordedPrUrl world.database dep).toList ++
    world.ledger.filterMap fun record => if record.id = dep then record.prUrl else none

def World.Merged (prUrl : String) : Prop :=
  ∃ pull ∈ world.github.pulls prUrl, pull.state = "MERGED"

/-- The work of a task is on the base branch: it was committed there, or a pull request of the
task is merged. -/
def World.OnBase : Prop :=
  dep ∈ world.base ∨ ∃ prUrl ∈ world.pullRequestsOf dep, world.Merged prUrl

/-- No task row, no pending file and no ledger record knows the id. -/
def World.Unknown : Prop :=
  world.database.tasks.lookup dep = none ∧ dep ∉ pending ∧ world.ledger.hasTaskId dep = false

/-- The row of a task is done, or the ledger has it done and neither a row nor a pending file is
there. -/
def World.Finished : Prop :=
  (∃ row ∈ world.database.tasks.lookup dep, row.status = .done) ∨
    world.database.tasks.lookup dep = none ∧ dep ∉ pending ∧
      ∃ record ∈ world.ledger, record.id = dep ∧ record.finalStatus = Flow.Status.done.value

/-- The recorded pull request, if there is one, is reported merged. -/
def World.ReportedMerged : Prop :=
  ∀ prUrl ∈ recordedPrUrl world.database dep,
    (world.github.prMergeState prUrl).1 = some "MERGED"

end Facts

variable {world : World} {pending : Pending} {dep taskId : String} {dependsOn : List String}
  {database : Database}

/-- A merge that is reported has happened. -/
theorem merged_of_reported {prUrl : String}
    (reported : (world.github.prMergeState prUrl).1 = some "MERGED") : world.Merged prUrl := by
  rw [GitHub.prMergeState] at reported
  split at reported
  · split at reported
    · next pull shown =>
        refine ⟨pull, shown, ?_⟩
        rw [Store.textOf.eq_def] at reported
        split at reported
        · cases reported
        · exact Option.some.inj reported
    · cases reported
  · cases reported

/-! ## Audit operations -/

/-- Two stores that a resolution reads alike: the task rows and the recorded pull requests. -/
structure SameReads (first second : Database) : Prop where
  tasks : second.tasks = first.tasks
  prUrl : ∀ dep, recordedPrUrl second dep = recordedPrUrl first dep

theorem SameReads.refl (database : Database) : SameReads database database := ⟨rfl, fun _ => rfl⟩

theorem SameReads.trans {first second third : Database} (one : SameReads first second)
    (two : SameReads second third) : SameReads first third :=
  ⟨two.tasks.trans one.tasks, fun dep => (two.prUrl dep).trans (one.prUrl dep)⟩

theorem sameReads_recordCompleted (database : Database) (taskId fingerprint resultRef : String) :
    SameReads database (recordCompleted database taskId kindPrMerge fingerprint resultRef) := by
  refine ⟨rfl, fun dep => ?_⟩
  have otherKind : ∀ row : PublishOpRow, row.kind = kindPrMerge →
      Store.sameOp { taskId := dep, kind := kindPr, fingerprint, status := statusCompleted } row =
        false := by
    intro row kind
    refine Bool.eq_false_iff.mpr fun same => ?_
    have here := (Store.sameOp_iff.mp same).2.1
    rw [kind] at here
    exact absurd (show kindPrMerge = kindPr from here) (by decide)
  rw [recordedPrUrl, recordedPrUrl]
  exact congrArg (Option.bind · _) (Store.getPublishOp_of_ne (otherKind _ rfl))

theorem sameReads_recordExternalMerge (database : Database) (taskId prUrl : String) :
    SameReads database (recordExternalMerge database taskId prUrl) := by
  rw [recordExternalMerge]
  split
  · exact .refl _
  · exact sameReads_recordCompleted ..

theorem sameReads_backfillMergeSha (database : Database) (taskId sha : String) :
    SameReads database (backfillMergeSha database taskId sha) := by
  rw [backfillMergeSha]
  split
  · split
    · exact .refl _
    · exact sameReads_recordCompleted ..
  · exact .refl _

theorem sameReads_dependencyMerged :
    SameReads database (dependencyMerged world database dep).2 := by
  rw [dependencyMerged]
  split
  · exact .refl _
  · next prUrl _ =>
      split
      · next sha _ =>
          cases sha with
          | none => exact sameReads_recordExternalMerge ..
          | some sha =>
              exact (sameReads_recordExternalMerge database dep prUrl).trans
                (sameReads_backfillMergeSha ..)
      · exact .refl _
      · exact .refl _

theorem sameReads_resolveDependency :
    SameReads database (resolveDependency world database dep pending).2 := by
  rw [resolveDependency]
  split
  · split
    · exact sameReads_dependencyMerged
    · exact .refl _
    · exact .refl _
    · exact .refl _
  · split
    · exact .refl _
    · split
      · dsimp only
        split
        · exact sameReads_dependencyMerged
        · exact .refl _
      · exact .refl _

theorem sameReads_resolveAll (pending : Pending) : ∀ (dependsOn : List String)
    (verdict : DependencyVerdict) (database : Database),
    SameReads database (resolveAll world pending verdict database dependsOn).2
  | [], _, _ => .refl _
  | dep :: rest, verdict, database => by
      have first := @sameReads_resolveDependency world pending dep database
      rw [resolveAll]
      dsimp only
      split
      · exact first
      · exact first.trans (sameReads_resolveAll pending rest _ _)
      · exact first.trans (sameReads_resolveAll pending rest _ _)

/-- The verdict of a task leaves what it was read from. -/
theorem sameReads_dependencyEligibility : SameReads world.database
    (dependencyEligibility world taskId dependsOn pending).2 := by
  rw [dependencyEligibility]
  split
  · exact .refl _
  · split
    · exact .refl _
    · exact sameReads_resolveAll pending dependsOn _ _

/-! ## One dependency -/

theorem dependencyMerged_state (same : SameReads world.database database) :
    (dependencyMerged world database dep).1.state = .eligible ∧ world.ReportedMerged dep ∨
      (dependencyMerged world database dep).1.state = .waiting ∧ ¬ world.ReportedMerged dep := by
  have reads := same.prUrl dep
  rw [dependencyMerged]
  cases recorded : recordedPrUrl database dep with
  | none =>
      rw [recorded] at reads
      refine .inl ⟨rfl, fun prUrl found => ?_⟩
      rw [← reads] at found
      cases found
  | some prUrl =>
      rw [recorded] at reads
      have reported : world.ReportedMerged dep ↔
          (world.github.prMergeState prUrl).1 = some "MERGED" := by
        rw [World.ReportedMerged, ← reads]
        exact ⟨fun all => all prUrl rfl, fun merged other found => Option.some.inj found ▸ merged⟩
      rw [reported]
      dsimp only
      split
      · next shown => exact .inl ⟨rfl, congrArg Prod.fst shown⟩
      · next shown =>
          refine .inr ⟨rfl, fun merged => ?_⟩
          cases (congrArg Prod.fst shown).symm.trans merged
      · next state sha unlike shown =>
          refine .inr ⟨rfl, fun merged => ?_⟩
          have isMerged := Option.some.inj ((congrArg Prod.fst shown).symm.trans merged)
          exact unlike isMerged

/-- The readiness of one dependency: released, unknown, or to be waited for. -/
inductive Resolved (world : World) (pending : Pending) (dep : String) : Eligibility → Prop where
  | released (finished : world.Finished pending dep) (merged : world.ReportedMerged dep) :
      Resolved world pending dep .eligible
  | waiting (known : ¬ world.Unknown pending dep)
      (open_ : ¬ (world.Finished pending dep ∧ world.ReportedMerged dep)) :
      Resolved world pending dep .waiting
  | unknown (unknown : world.Unknown pending dep) : Resolved world pending dep .broken

/-- A finished dependency resolves by its pull request. -/
theorem resolved_dependencyMerged (same : SameReads world.database database)
    (known : ¬ world.Unknown pending dep) (finished : world.Finished pending dep) :
    Resolved world pending dep (dependencyMerged world database dep).1.state := by
  rcases dependencyMerged_state same with ⟨state, merged⟩ | ⟨state, unmerged⟩
  · rw [state]
    exact .released finished merged
  · rw [state]
    exact .waiting known fun both => unmerged both.2

/-- A task with a row is finished when the row is done. -/
theorem finished_of_row {row : Store.TaskRow}
    (found : world.database.tasks.lookup dep = some row) :
    world.Finished pending dep ↔ row.status = .done := by
  constructor
  · rintro (⟨other, listed, done⟩ | ⟨absent, _⟩)
    · cases found.symm.trans listed
      exact done
    · cases found.symm.trans absent
  · exact fun done => .inl ⟨row, found, done⟩

theorem known_of_row {row : Store.TaskRow}
    (found : world.database.tasks.lookup dep = some row) : ¬ world.Unknown pending dep :=
  fun unknown => nomatch found.symm.trans unknown.1

theorem resolved_resolveDependency (same : SameReads world.database database) :
    Resolved world pending dep (resolveDependency world database dep pending).1.state := by
  rw [resolveDependency, same.tasks]
  cases found : world.database.tasks.lookup dep with
  | some row =>
      have known : ¬ world.Unknown pending dep := known_of_row found
      have unfinished (other : row.status ≠ .done) :
          ¬ (world.Finished pending dep ∧ world.ReportedMerged dep) :=
        fun both => other ((finished_of_row found).mp both.1)
      dsimp only
      cases status : row.status with
      | done => exact resolved_dependencyMerged same known ((finished_of_row found).mpr status)
      | _ => exact .waiting known (unfinished (by rw [status]; exact nofun))
  | none =>
      have noRow : ¬ ∃ row ∈ world.database.tasks.lookup dep, row.status = .done := by
        rintro ⟨row, listed, _⟩
        cases found.symm.trans listed
      dsimp only
      by_cases waits : dep ∈ pending
      · rw [if_pos waits]
        refine .waiting (fun unknown => unknown.2.1 waits) fun both => ?_
        rcases both.1 with row | ⟨_, absent, _⟩
        · exact noRow row
        · exact absent waits
      · rw [if_neg waits]
        by_cases seen : world.ledger.hasTaskId dep = true
        · have known : ¬ world.Unknown pending dep :=
            fun unknown => Bool.false_ne_true (unknown.2.2.symm.trans seen)
          rw [if_pos seen]
          split
          · next done =>
              obtain ⟨record, listed, isDone⟩ := List.any_eq_true.mp done
              rw [Bool.and_eq_true, decide_eq_true_eq, decide_eq_true_eq] at isDone
              exact resolved_dependencyMerged same known
                (.inr ⟨found, waits, record, listed, isDone⟩)
          · next notDone =>
              refine .waiting known fun both => ?_
              rcases both.1 with row | ⟨_, _, record, listed, isDone⟩
              · exact noRow row
              · refine notDone (List.any_eq_true.mpr ⟨record, listed, ?_⟩)
                rw [Bool.and_eq_true, decide_eq_true_eq, decide_eq_true_eq]
                exact isDone
        · rw [if_neg seen]
          exact .unknown ⟨found, waits, Bool.eq_false_iff.mpr seen⟩

/-! ## The verdict -/

/-- A task may run, of what it names. -/
structure Released (world : World) (pending : Pending) (dependsOn : List String) : Prop where
  finished : ∀ dep ∈ dependsOn, world.Finished pending dep
  merged : ∀ dep ∈ dependsOn, world.ReportedMerged dep

/-- A finished dependency is known. -/
theorem not_unknown_of_finished (finished : world.Finished pending dep) :
    ¬ world.Unknown pending dep := by
  intro unknown
  rcases finished with ⟨row, listed, _⟩ | ⟨_, _, record, listed, named, _⟩
  · cases unknown.1.symm.trans listed
  · have seen := Store.Ledger.hasTaskId_iff.mpr ⟨record, listed, named⟩
    cases unknown.2.2.symm.trans seen

/-- The loop is broken by an unknown dependency, and releases the task when all are released. -/
theorem resolveAll_state (pending : Pending) : ∀ (dependsOn : List String)
    (verdict : DependencyVerdict) (database : Database), SameReads world.database database →
    verdict.state ≠ .broken →
    ((resolveAll world pending verdict database dependsOn).1.state = .broken ↔
        ∃ dep ∈ dependsOn, world.Unknown pending dep) ∧
      ((resolveAll world pending verdict database dependsOn).1.state = .eligible ↔
        verdict.state = .eligible ∧ Released world pending dependsOn)
  | [], verdict, _, _, unbroken => by
      constructor
      · exact iff_of_false unbroken fun found => List.not_mem_nil found.choose_spec.1
      · exact (and_iff_left ⟨nofun, nofun⟩).symm
  | dep :: rest, verdict, database, same, unbroken => by
      have after := same.trans (@sameReads_resolveDependency world pending dep database)
      have resolved := @resolved_resolveDependency world pending dep database same
      rw [resolveAll]
      generalize resolveDependency world database dep pending = found at after resolved
      obtain ⟨⟨state, detail⟩, later⟩ := found
      dsimp only at after resolved ⊢
      cases resolved with
      | released finished merged =>
          obtain ⟨breaks, releases⟩ := resolveAll_state pending rest verdict later after unbroken
          dsimp only
          rw [breaks, releases]
          constructor
          · rw [List.exists_mem_cons_iff, or_iff_right (not_unknown_of_finished finished)]
          · refine and_congr_right fun _ => ⟨fun others => ⟨?_, ?_⟩, fun all => ⟨?_, ?_⟩⟩
            · exact List.forall_mem_cons.mpr ⟨finished, others.finished⟩
            · exact List.forall_mem_cons.mpr ⟨merged, others.merged⟩
            · exact (List.forall_mem_cons.mp all.finished).2
            · exact (List.forall_mem_cons.mp all.merged).2
      | waiting known held =>
          have notReleased : ¬ Released world pending (dep :: rest) := fun all =>
            held ⟨all.finished dep List.mem_cons_self, all.merged dep List.mem_cons_self⟩
          rw [List.exists_mem_cons_iff, or_iff_right known, iff_false_intro notReleased, and_false]
          cases earlier : verdict.state with
          | broken => exact absurd earlier unbroken
          | eligible =>
              obtain ⟨breaks, releases⟩ :=
                resolveAll_state pending rest ⟨.waiting, detail⟩ later after nofun
              exact ⟨breaks, releases.trans (iff_false_intro fun both => nomatch both.1)⟩
          | waiting =>
              obtain ⟨breaks, releases⟩ :=
                resolveAll_state pending rest verdict later after unbroken
              rw [earlier] at releases
              exact ⟨breaks, releases.trans (iff_false_intro fun both => nomatch both.1)⟩
      | unknown unknown =>
          refine ⟨iff_of_true rfl ⟨dep, List.mem_cons_self, unknown⟩, iff_of_false (nomatch ·) ?_⟩
          intro all
          exact not_unknown_of_finished (all.2.finished dep List.mem_cons_self) unknown

theorem dependencyEligibility_broken_iff :
    (dependencyEligibility world taskId dependsOn pending).1.state = .broken ↔
      dependsOn ≠ [] ∧ (pending.OnCycle taskId ∨ ∃ dep ∈ dependsOn, world.Unknown pending dep) := by
  rw [dependencyEligibility]
  by_cases alone : dependsOn = []
  · rw [if_pos alone]
    exact iff_of_false nofun fun both => both.1 alone
  · rw [if_neg alone, and_iff_right alone]
    by_cases cyclic : inCycle taskId pending = true
    · rw [if_pos cyclic]
      exact iff_of_true rfl (.inl (inCycle_iff.mp cyclic))
    · rw [if_neg cyclic, or_iff_right fun found => cyclic (inCycle_iff.mpr found)]
      exact (@resolveAll_state world pending dependsOn { state := .eligible } world.database
        (.refl _) nofun).1

theorem dependencyEligibility_eligible_iff :
    (dependencyEligibility world taskId dependsOn pending).1.state = .eligible ↔
      dependsOn = [] ∨ ¬ pending.OnCycle taskId ∧ Released world pending dependsOn := by
  rw [dependencyEligibility]
  by_cases alone : dependsOn = []
  · rw [if_pos alone]
    exact iff_of_true rfl (.inl alone)
  · rw [if_neg alone, or_iff_right alone]
    by_cases cyclic : inCycle taskId pending = true
    · rw [if_pos cyclic]
      exact iff_of_false nofun fun both => both.1 (inCycle_iff.mp cyclic)
    · have acyclic : ¬ pending.OnCycle taskId := fun found => cyclic (inCycle_iff.mpr found)
      rw [if_neg cyclic, and_iff_right acyclic]
      have releases := (@resolveAll_state world pending dependsOn { state := .eligible }
        world.database (.refl _) nofun).2
      exact releases.trans (and_iff_right rfl)

/-! ## The gate -/

/-- What a call promises: a task is released only when the work of its dependencies is on the base
branch, and it is broken exactly by a reference to itself, a cycle or an unknown id. -/
structure Gated (world : World) (taskId : String) (dependsOn : List String) (pending : Pending) :
    Prop where
  onBase : (dependencyEligibility world taskId dependsOn pending).1.state = .eligible →
    ∀ dep ∈ dependsOn, world.OnBase dep
  broken : (dependencyEligibility world taskId dependsOn pending).1.state = .broken ↔
    taskId ∈ dependsOn ∨ pending.OnCycle taskId ∨ ∃ dep ∈ dependsOn, world.Unknown pending dep

/-- The dependencies that are finished without a recorded pull request were committed to the base
branch, or another fact holds the task back; and the pending graph has the task with what it
names. -/
structure GateInputs (world : World) (taskId : String) (dependsOn : List String)
    (pending : Pending) : Prop where
  landed : ¬ pending.OnCycle taskId → Released world pending dependsOn →
    ∀ dep ∈ dependsOn, recordedPrUrl world.database dep = none → world.OnBase dep
  itself : taskId ∈ dependsOn →
    pending.OnCycle taskId ∨ ∃ dep ∈ dependsOn, world.Unknown pending dep
  alone : dependsOn = [] → ¬ pending.OnCycle taskId

/-- A recorded pull request that is reported merged puts the work on the base branch. -/
theorem onBase_of_reported {prUrl : String}
    (recorded : recordedPrUrl world.database dep = some prUrl)
    (merged : world.ReportedMerged dep) : world.OnBase dep := by
  refine .inr ⟨prUrl, List.mem_append_left _ ?_, merged_of_reported (merged prUrl recorded)⟩
  rw [recorded]
  exact List.mem_singleton_self _

/-- **The merge gate.** A call keeps its promise exactly when its inputs are as above. -/
theorem gated_iff (world : World) (taskId : String) (dependsOn : List String) (pending : Pending) :
    Gated world taskId dependsOn pending ↔ GateInputs world taskId dependsOn pending := by
  constructor
  · rintro ⟨onBase, broken⟩
    rw [dependencyEligibility_broken_iff] at broken
    refine ⟨fun acyclic released dep listed _ => ?_, fun itself => ?_, fun alone cyclic => ?_⟩
    · exact onBase (dependencyEligibility_eligible_iff.mpr (.inr ⟨acyclic, released⟩)) dep listed
    · exact (broken.mpr (.inl itself)).2
    · exact (broken.mpr (.inr (.inl cyclic))).1 alone
  · rintro ⟨landed, itself, alone⟩
    constructor
    · intro eligible dep listed
      rcases dependencyEligibility_eligible_iff.mp eligible with empty | ⟨acyclic, released⟩
      · rw [empty] at listed
        cases listed
      · cases recorded : recordedPrUrl world.database dep with
        | none => exact landed acyclic released dep listed recorded
        | some prUrl => exact onBase_of_reported recorded (released.merged dep listed)
    · rw [dependencyEligibility_broken_iff]
      constructor
      · exact fun both => .inr both.2
      · rintro (listed | cyclic | ⟨dep, listed, unknown⟩)
        · exact ⟨List.ne_nil_of_mem listed, itself listed⟩
        · exact ⟨fun empty => alone empty cyclic, .inl cyclic⟩
        · exact ⟨List.ne_nil_of_mem listed, .inr ⟨dep, listed, unknown⟩⟩

/-- The row of a done task that was committed on a branch of its own. -/
def onItsBranch : Store.TaskRow where
  title := "Feature"
  status := .done
  branch := some "task/dep"

/-- The task was published without a pull request. -/
def unmergedDone : World where
  database := { tasks := Dict.ofList [("dep", onItsBranch)] }

/-- Its dependent is released with nothing of it on the base branch. -/
theorem released_unmerged :
    ∃ (world : World) (taskId : String) (dependsOn : List String) (pending : Pending),
      ¬ Gated world taskId dependsOn pending := by
  refine ⟨unmergedDone, "task", ["dep"], Dict.ofList [("task", ["dep"])], fun gated => ?_⟩
  have released : (dependencyEligibility unmergedDone "task" ["dep"]
      (Dict.ofList [("task", ["dep"])])).1.state = .eligible := by decide +kernel
  rcases gated.onBase released "dep" List.mem_cons_self with committed | ⟨prUrl, recorded, _⟩
  · cases committed
  · cases recorded

end Orchestrator.Scheduling
