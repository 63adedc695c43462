import Orchestrator.Scheduling.MergeGate
import Orchestrator.Scheduling.Watch

/-! # What one pass of the scheduler keeps

The pass takes the files of its queue in their order, so that what it launches next is the least
eligible file. The pending map has lost the files of the other queues.
-/

namespace Orchestrator.Scheduling

open Orchestrator.Foundation

/-! ## Order -/

section Order

variable {casefold : String → String} {folder : List PendingFile} {selector : String}
  {file : PendingFile}

theorem mem_scanPendingSorted : file ∈ scanPendingSorted casefold folder selector ↔
    file ∈ folder ∧ Text.lower (stemAndSuffix file.name).2 ∈ [".md", ".json"] ∧
      file.scan.queue = selector := by
  rw [scanPendingSorted, List.mem_insertionSort, List.mem_filter, selectPending,
    List.mem_insertionSort, List.mem_filter, decide_eq_true_eq, decide_eq_true_eq, and_assoc]

theorem pairwise_scanPendingSorted : (scanPendingSorted casefold folder selector).Pairwise
    fun first second => sortKey casefold first ≤ sortKey casefold second := by
  have total : Std.Total fun first second : PendingFile =>
      sortKey casefold first ≤ sortKey casefold second := ⟨fun _ _ => le_total _ _⟩
  have trans : IsTrans PendingFile fun first second =>
      sortKey casefold first ≤ sortKey casefold second := ⟨fun _ _ _ => le_trans⟩
  exact List.pairwise_insertionSort _ _

end Order

/-! ## Readiness -/

variable {watcher : Watcher} {pending : Pending} {home other : Home} {file : PendingFile}
  {files : List PendingFile}

/-- A file that a pass may hand to the pipeline: not settled, and its dependencies release it. -/
def Eligible (pending : Pending) (home : Home) (file : PendingFile) : Prop :=
  Watcher.isSettled home file = false ∧ (Watcher.eligibility pending home file).1.state = .eligible

/-- A turn in which the pass chose the file, whether or not the operator let it go on. -/
def Turn.Chosen (turn : Turn) : Prop := turn.decision = .launched ∨ turn.decision = .declined

instance (turn : Turn) : Decidable turn.Chosen := inferInstanceAs (Decidable (_ ∨ _))

/-- A pass chooses the files that are eligible. -/
theorem chosen_iff : (watcher.decision pending home file = .launched ∨
    watcher.decision pending home file = .declined) ↔ Eligible pending home file := by
  rw [Watcher.decision, Eligible]
  by_cases settled : Watcher.isSettled home file = true
  · rw [if_pos settled, settled]
    exact iff_of_false (not_or.mpr ⟨nofun, nofun⟩) fun both => nomatch both.1
  · rw [if_neg settled, Bool.eq_false_iff.mpr settled, and_iff_right rfl]
    dsimp only
    cases (Watcher.eligibility pending home file).1.state with
    | eligible =>
        refine iff_of_true ?_ rfl
        dsimp only
        split
        · exact .inr rfl
        · exact .inl rfl
    | waiting => exact iff_of_false (not_or.mpr ⟨nofun, nofun⟩) nofun
    | broken => exact iff_of_false (not_or.mpr ⟨nofun, nofun⟩) nofun

/-- It launches them, unless the operator declines. -/
theorem decision_launched_iff : watcher.decision pending home file = .launched ↔
    Eligible pending home file ∧
      (watcher.confirmNextTask = true → watcher.claimAllowed home file.scan = true) := by
  rw [Watcher.decision, Eligible]
  by_cases settled : Watcher.isSettled home file = true
  · rw [if_pos settled, settled]
    exact iff_of_false nofun fun both => nomatch both.1.1
  · rw [if_neg settled, Bool.eq_false_iff.mpr settled, and_iff_right rfl]
    dsimp only
    cases (Watcher.eligibility pending home file).1.state with
    | eligible =>
        rw [and_iff_right rfl]
        dsimp only
        cases watcher.confirmNextTask <;> cases watcher.claimAllowed home file.scan <;> simp
    | waiting => exact iff_of_false nofun fun both => nomatch both.1
    | broken => exact iff_of_false nofun fun both => nomatch both.1

/-- A file is rejected for a broken verdict. -/
theorem decision_broken_iff :
    (∃ detail, watcher.decision pending home file = .broken detail) ↔
      Watcher.isSettled home file = false ∧
        (Watcher.eligibility pending home file).1.state = .broken := by
  rw [Watcher.decision]
  by_cases settled : Watcher.isSettled home file = true
  · rw [if_pos settled, settled]
    exact iff_of_false (fun found => nomatch found.choose_spec) fun both => nomatch both.1
  · rw [if_neg settled, Bool.eq_false_iff.mpr settled, and_iff_right rfl]
    dsimp only
    cases (Watcher.eligibility pending home file).1.state with
    | eligible =>
        refine iff_of_false (fun ⟨_, found⟩ => ?_) nofun
        dsimp only at found
        split at found <;> cases found
    | waiting => exact iff_of_false (fun found => nomatch found.choose_spec) nofun
    | broken => exact iff_of_true ⟨_, rfl⟩ rfl

/-- Two homes that the readiness of every file is read from alike. -/
structure SameGate (first second : Home) : Prop where
  reads : SameReads first.world.database second.world.database
  github : second.world.github = first.world.github
  done : ∀ dep, (∃ record ∈ second.world.ledger,
      record.id = dep ∧ record.finalStatus = Flow.Status.done.value) ↔
    ∃ record ∈ first.world.ledger, record.id = dep ∧ record.finalStatus = Flow.Status.done.value

theorem SameGate.refl (home : Home) : SameGate home home := ⟨.refl _, rfl, fun _ => .rfl⟩

theorem SameGate.of_world (same : other.world = home.world) : SameGate home other :=
  ⟨same ▸ .refl _, same ▸ rfl, same ▸ fun _ => .rfl⟩

theorem SameGate.trans {first second third : Home} (one : SameGate first second)
    (two : SameGate second third) : SameGate first third :=
  ⟨one.reads.trans two.reads, two.github.trans one.github,
    fun dep => (two.done dep).trans (one.done dep)⟩

theorem SameGate.isSettled (same : SameGate home other) (file : PendingFile) :
    Watcher.isSettled other file = Watcher.isSettled home file := by
  rw [Watcher.isSettled, Watcher.isSettled]
  refine congrArg (file.scan.taskId.any ·) (funext fun taskId => ?_)
  rw [settledOwnFile, settledOwnFile, same.reads.tasks]

theorem SameGate.released (same : SameGate home other) (dependsOn : List String) :
    Released other.world pending dependsOn ↔ Released home.world pending dependsOn := by
  have finished (dep : String) : other.world.Finished pending dep ↔
      home.world.Finished pending dep := by
    rw [World.Finished, World.Finished, same.reads.tasks, same.done dep]
  have merged (dep : String) : other.world.ReportedMerged dep ↔ home.world.ReportedMerged dep := by
    rw [World.ReportedMerged, World.ReportedMerged, same.reads.prUrl, same.github]
  constructor
  · exact fun all => ⟨fun dep listed => (finished dep).mp (all.finished dep listed),
      fun dep listed => (merged dep).mp (all.merged dep listed)⟩
  · exact fun all => ⟨fun dep listed => (finished dep).mpr (all.finished dep listed),
      fun dep listed => (merged dep).mpr (all.merged dep listed)⟩

theorem eligibility_eligible_iff : (Watcher.eligibility pending home file).1.state = .eligible ↔
    file.scan.taskId = none ∨ file.scan.dependsOn = [] ∨
      (∀ taskId ∈ file.scan.taskId, ¬ pending.OnCycle taskId) ∧
        Released home.world pending file.scan.dependsOn := by
  rw [Watcher.eligibility]
  cases named : file.scan.taskId with
  | none => exact iff_of_true rfl (.inl rfl)
  | some taskId =>
      dsimp only
      rw [or_iff_right nofun]
      by_cases alone : file.scan.dependsOn = []
      · rw [if_pos alone]
        exact iff_of_true rfl (.inl alone)
      · rw [if_neg alone, dependencyEligibility_eligible_iff]
        refine or_congr_right (and_congr_left fun _ => ?_)
        exact ⟨fun acyclic _ found => Option.some.inj found ▸ acyclic, fun all => all taskId rfl⟩

theorem eligibility_broken_iff : (Watcher.eligibility pending home file).1.state = .broken ↔
    file.scan.dependsOn ≠ [] ∧ ∃ taskId ∈ file.scan.taskId, pending.OnCycle taskId ∨
      ∃ dep ∈ file.scan.dependsOn, home.world.Unknown pending dep := by
  rw [Watcher.eligibility]
  cases named : file.scan.taskId with
  | none => exact iff_of_false nofun fun both => nomatch both.2.choose_spec.1
  | some taskId =>
      dsimp only
      by_cases alone : file.scan.dependsOn = []
      · rw [if_pos alone]
        exact iff_of_false nofun fun both => both.1 alone
      · rw [if_neg alone, dependencyEligibility_broken_iff]
        refine and_congr_right fun _ => ⟨fun broken => ⟨taskId, rfl, broken⟩, ?_⟩
        rintro ⟨other, same, broken⟩
        exact Option.some.inj same ▸ broken

theorem SameGate.eligible (same : SameGate home other) (file : PendingFile) :
    Eligible pending other file ↔ Eligible pending home file := by
  rw [Eligible, Eligible, same.isSettled, eligibility_eligible_iff, eligibility_eligible_iff,
    same.released]

/-- The slot is free or held alike. -/
theorem SameGate.acquireSlot (same : SameGate home other) (taskId : String) :
    acquireSlot other.world.database taskId = acquireSlot home.world.database taskId := by
  rw [Scheduling.acquireSlot, Scheduling.acquireSlot, same.reads.tasks]

/-! ## Steps that launch nothing -/

theorem sameGate_checked : SameGate home (Watcher.checked pending home file) := by
  rw [Watcher.checked]
  split
  · exact .refl _
  · refine ⟨?_, rfl, fun _ => .rfl⟩
    rw [Watcher.eligibility]
    split
    · split
      · exact .refl _
      · exact sameReads_dependencyEligibility
    · exact .refl _

/-- A reject records no task as done. -/
theorem sameGate_rejectDependency (now : String) (advancedMode : Bool) :
    SameGate home (home.rejectDependency file now advancedMode) := by
  rw [Home.rejectDependency]
  dsimp only
  split
  · refine ⟨.refl _, rfl, fun dep => ?_⟩
    constructor
    · rintro ⟨record, listed, named, done⟩
      rcases List.mem_append.mp listed with earlier | rejected
      · exact ⟨record, earlier, named, done⟩
      · rw [List.mem_singleton.mp rejected] at done
        exact absurd done (show Flow.Status.failed.value ≠ Flow.Status.done.value by decide)
    · rintro ⟨record, listed, found⟩
      exact ⟨record, List.mem_append_left _ listed, found⟩
  · exact .of_world rfl
  · exact .refl _
  · exact .refl _

/-! ## The turns of a pass -/

/-- What the loop can do from a home with the files that are left. -/
inductive Passes (watcher : Watcher) (pending : Pending) :
    List PendingFile → Home → List Turn → Prop where
  | finished (home : Home) : Passes watcher pending [] home []
  | held (files : List PendingFile) (home : Home)
      (held : acquireSlot home.world.database "" = false) : Passes watcher pending files home []
  | declined (file : PendingFile) (rest : List PendingFile) (home : Home)
      (free : acquireSlot home.world.database "" = true)
      (decides : watcher.decision pending home file = .declined) :
      Passes watcher pending (file :: rest) home [⟨home, file, .declined, none⟩]
  | last (file : PendingFile) (rest : List PendingFile) (home : Home) (status : Flow.Status)
      (free : acquireSlot home.world.database "" = true)
      (decides : watcher.decision pending home file = .launched) :
      Passes watcher pending (file :: rest) home [⟨home, file, .launched, some status⟩]
  | launched (file : PendingFile) (rest : List PendingFile) (home after : Home)
      (status : Flow.Status) (turns : List Turn)
      (free : acquireSlot home.world.database "" = true)
      (decides : watcher.decision pending home file = .launched) (auto : watcher.auto = true)
      (later : Passes watcher pending rest after turns) :
      Passes watcher pending (file :: rest) home (⟨home, file, .launched, some status⟩ :: turns)
  | skipped (file : PendingFile) (rest : List PendingFile) (home after : Home)
      (decision : Decision) (status : Option Flow.Status) (turns : List Turn)
      (free : acquireSlot home.world.database "" = true)
      (decides : watcher.decision pending home file = decision)
      (notLaunched : decision ≠ .launched) (notDeclined : decision ≠ .declined)
      (same : SameGate home after) (later : Passes watcher pending rest after turns) :
      Passes watcher pending (file :: rest) home (⟨home, file, decision, status⟩ :: turns)

theorem passes_watchLoop (watcher : Watcher) (pending : Pending) :
    ∀ (files : List PendingFile) (home : Home),
      Passes watcher pending files home (watcher.watchLoop pending files home).1
  | [], home => .finished home
  | file :: rest, home => by
      rw [Watcher.watchLoop]
      by_cases free : acquireSlot home.world.database "" = true
      · rw [if_pos free]
        have checked : SameGate home (Watcher.checked pending home file) := sameGate_checked
        cases decides : watcher.decision pending home file with
        | declined => exact .declined file rest home free decides
        | launched =>
            dsimp only
            split
            · exact .last file rest home _ free decides
            · next goesOn =>
                have auto : watcher.auto = true := by
                  rw [not_or] at goesOn
                  exact Bool.not_eq_false _ |>.mp goesOn.2
                exact .launched file rest home _ _ _ free decides auto
                  (passes_watchLoop watcher pending rest _)
        | broken detail =>
            have rejected := checked.trans (@sameGate_rejectDependency
              (Watcher.checked pending home file) file (watcher.now home) watcher.advancedMode)
            exact .skipped file rest home _ _ _ _ free decides nofun nofun rejected
              (passes_watchLoop watcher pending rest _)
        | settled =>
            exact .skipped file rest home _ _ _ _ free decides nofun nofun checked
              (passes_watchLoop watcher pending rest _)
        | waiting detail =>
            exact .skipped file rest home _ _ _ _ free decides nofun nofun checked
              (passes_watchLoop watcher pending rest _)
      · rw [if_neg free]
        exact .held _ home (Bool.eq_false_iff.mpr free)

variable {turns : List Turn}

/-- A turn is taken with the slot free, and does what the home and the file decide. -/
theorem Passes.sound (passes : Passes watcher pending files home turns) :
    ∀ turn ∈ turns, turn.file ∈ files ∧ acquireSlot turn.home.world.database "" = true ∧
      turn.decision = watcher.decision pending turn.home turn.file := by
  induction passes with
  | finished => exact List.forall_mem_nil _
  | held => exact List.forall_mem_nil _
  | declined file rest home free decides =>
      intro turn listed
      rw [List.mem_singleton.mp listed]
      exact ⟨List.mem_cons_self, free, decides.symm⟩
  | last file rest home status free decides =>
      intro turn listed
      rw [List.mem_singleton.mp listed]
      exact ⟨List.mem_cons_self, free, decides.symm⟩
  | launched file rest home after status turns free decides auto later ih =>
      intro turn listed
      rcases List.mem_cons.mp listed with rfl | among
      · exact ⟨List.mem_cons_self, free, decides.symm⟩
      · exact (ih turn among).imp_left (List.mem_cons_of_mem _)
  | skipped file rest home after decision status turns free decides _ _ _ later ih =>
      intro turn listed
      rcases List.mem_cons.mp listed with rfl | among
      · exact ⟨List.mem_cons_self, free, decides.symm⟩
      · exact (ih turn among).imp_left (List.mem_cons_of_mem _)

/-- The turns take the files in their order, with no file left out. -/
theorem Passes.files_prefix (passes : Passes watcher pending files home turns) :
    turns.map Turn.file <+: files := by
  induction passes with
  | finished => exact List.nil_prefix
  | held => exact List.nil_prefix
  | declined => exact List.prefix_append [_] _
  | last => exact List.prefix_append [_] _
  | launched _ _ _ _ _ _ _ _ _ _ ih => exact (List.prefix_cons_inj _).mpr ih
  | skipped _ _ _ _ _ _ _ _ _ _ _ _ _ ih => exact (List.prefix_cons_inj _).mpr ih

/-- Without auto mode a pass launches one file at most. -/
theorem Passes.single (passes : Passes watcher pending files home turns)
    (single : watcher.auto = false) :
    (turns.filter fun turn => turn.decision = .launched).length ≤ 1 := by
  induction passes with
  | finished => exact Nat.zero_le _
  | held => exact Nat.zero_le _
  | declined => exact Nat.zero_le _
  | last => exact Nat.le_refl _
  | launched _ _ _ _ _ _ _ _ auto =>
      rw [single] at auto
      cases auto
  | skipped _ _ _ _ _ _ _ _ _ notLaunched _ _ _ ih =>
      rw [List.filter_cons, if_neg (by rw [decide_eq_true_eq]; exact notLaunched)]
      exact ih

section Split

variable {before after : List Turn} {first turn : Turn}

theorem nil_ne_split : ([] : List Turn) ≠ before ++ turn :: after :=
  (List.append_ne_nil_of_right_ne_nil before (List.cons_ne_nil turn after)).symm

theorem eq_of_singleton_split (split : [first] = before ++ turn :: after) :
    before = [] ∧ first = turn := by
  cases before with
  | nil => exact ⟨rfl, (List.cons.inj split).1⟩
  | cons _ _ => exact absurd (List.cons.inj split).2 nil_ne_split

end Split

/-- A turn that is declined ends the pass. -/
theorem Passes.not_declined_before (passes : Passes watcher pending files home turns) :
    ∀ (before : List Turn) (turn : Turn) (after : List Turn), turns = before ++ turn :: after →
      ∀ earlier ∈ before, earlier.decision ≠ .declined := by
  induction passes with
  | finished => exact fun _ _ _ split => absurd split nil_ne_split
  | held => exact fun _ _ _ split => absurd split nil_ne_split
  | declined => exact fun _ _ _ split => (eq_of_singleton_split split).1 ▸ List.forall_mem_nil _
  | last => exact fun _ _ _ split => (eq_of_singleton_split split).1 ▸ List.forall_mem_nil _
  | launched _ _ _ _ _ _ _ _ _ _ ih =>
      intro before turn after split
      cases before with
      | nil => exact List.forall_mem_nil _
      | cons first before =>
          obtain ⟨rfl, tail⟩ := List.cons.inj split
          have launched : Decision.launched ≠ .declined := nofun
          exact List.forall_mem_cons.mpr ⟨launched, ih before turn after tail⟩
  | skipped _ _ _ _ _ _ _ _ _ _ notDeclined _ _ ih =>
      intro before turn after split
      cases before with
      | nil => exact List.forall_mem_nil _
      | cons first before =>
          obtain ⟨rfl, tail⟩ := List.cons.inj split
          exact List.forall_mem_cons.mpr ⟨notDeclined, ih before turn after tail⟩

/-- Until the first launch the readiness of the files is what it was. -/
theorem Passes.sameGate (passes : Passes watcher pending files home turns) :
    ∀ (before : List Turn) (turn : Turn) (after : List Turn), turns = before ++ turn :: after →
      (∀ earlier ∈ before, earlier.decision ≠ .launched) → SameGate home turn.home := by
  induction passes with
  | finished => exact fun _ _ _ split => absurd split nil_ne_split
  | held => exact fun _ _ _ split => absurd split nil_ne_split
  | declined => exact fun _ _ _ split _ => (eq_of_singleton_split split).2 ▸ .refl _
  | last => exact fun _ _ _ split _ => (eq_of_singleton_split split).2 ▸ .refl _
  | launched _ _ home =>
      intro before turn after split quiet
      cases before with
      | nil => exact (List.cons.inj split).1 ▸ SameGate.refl home
      | cons first before =>
          obtain ⟨rfl, _⟩ := List.cons.inj split
          exact absurd rfl (quiet _ List.mem_cons_self)
  | skipped _ _ home _ _ _ _ _ _ _ _ same _ ih =>
      intro before turn after split quiet
      cases before with
      | nil => exact (List.cons.inj split).1 ▸ SameGate.refl home
      | cons first before =>
          apply same.trans
          exact ih before turn after (List.cons.inj split).2 (List.forall_mem_cons.mp quiet).2

/-- With the slot free an eligible file lets the pass choose one. -/
theorem Passes.progress (passes : Passes watcher pending files home turns)
    (free : acquireSlot home.world.database "" = true)
    (some : ∃ file ∈ files, Eligible pending home file) : ∃ turn ∈ turns, turn.Chosen := by
  induction passes with
  | finished =>
      obtain ⟨_, listed, _⟩ := some
      cases listed
  | held _ _ held =>
      rw [held] at free
      cases free
  | declined => exact ⟨_, List.mem_cons_self, .inr rfl⟩
  | last => exact ⟨_, List.mem_cons_self, .inl rfl⟩
  | launched => exact ⟨_, List.mem_cons_self, .inl rfl⟩
  | skipped file rest home after decision _ _ _ decides notLaunched notDeclined same _ ih =>
      obtain ⟨other, listed, eligible⟩ := some
      rcases List.mem_cons.mp listed with rfl | among
      · rcases (@chosen_iff watcher pending home other).mpr eligible with launched | declined
        · exact absurd (decides.symm.trans launched) notLaunched
        · exact absurd (decides.symm.trans declined) notDeclined
      · obtain ⟨turn, later, chosen⟩ := ih ((same.acquireSlot "").trans free)
          ⟨other, among, (same.eligible other).mpr eligible⟩
        exact ⟨turn, List.mem_cons_of_mem _ later, chosen⟩

end Orchestrator.Scheduling
